import RustDesk.SessionIdentity
import Mathlib.Data.List.Dedup

/-!
# Who receives what from the services

The clipboard, the file clipboard and the cursor are for remote control, and so is the
audio, which a camera session gets as well during a voice call. The handlers of the peer's
messages keep to this. The permission switches of the connection manager subscribe without
a look at the session.
-/

namespace RustDesk

open Connection

/-- The services whose delivery depends on the kind of the session. -/
def Service.watched : Service → Bool
  | .cursor => true
  | .clipboard => true
  | .fileClipboard => true
  | .audio => true
  | _ => false

/-- The sessions a service may be delivered to. -/
def Service.Allowed (kind : Option AuthConnType) (voiceCalling : Bool) : Service → Prop
  | .cursor => kind = some .remote
  | .clipboard => kind = some .remote
  | .fileClipboard => kind = some .remote
  | .audio => kind = some .remote ∨ (kind = some .viewCamera ∧ voiceCalling = true)
  | _ => True

/-- The connection subscribes only to services that its session may be delivered. -/
def Delivered (s : Connection) : Prop :=
  ∀ svc ∈ s.subs, svc.Allowed s.authedConnId s.voiceCalling

/-- The part of a connection that `Delivered` looks at. -/
structure Watch where
  subs : List Service
  voiceCalling : Bool
  kind : Option AuthConnType
  authorized : Bool

def Connection.watch (s : Connection) : Watch :=
  ⟨s.subs.filter Service.watched, s.voiceCalling, s.authedConnId, s.authorized⟩

namespace Subscriptions

variable {b : Build} {env : Env} {s s' : Connection} {r : Connection × Bool}

theorem allowed_of_not_watched {kind : Option AuthConnType} {voiceCalling : Bool} {svc : Service}
    (h : svc.watched = false) : svc.Allowed kind voiceCalling := by
  cases svc <;> simp_all [Service.watched, Service.Allowed]

theorem allowed_remote {voiceCalling : Bool} (svc : Service) :
    svc.Allowed (some .remote) voiceCalling := by
  cases svc <;> simp [Service.Allowed]

/-! An effect is nothing that `Delivered` looks at. -/

theorem watch_emit (e : Effect) : (s.emit e).watch = s.watch := rfl

theorem watch_send (m : Outgoing) : (s.send m).watch = s.watch := watch_emit _

theorem watch_sendToCm (d : ToCm) : (s.sendToCm d).watch = s.watch := watch_emit _

theorem watch_sendFs (f : Fs) : (s.sendFs f).watch = s.watch := watch_sendToCm _

theorem delivered_of_watch (hw : s'.watch = s.watch) (h : Delivered s) : Delivered s' := by
  intro svc hm
  have hv : s'.voiceCalling = s.voiceCalling := congrArg Watch.voiceCalling hw
  have hk : s'.authedConnId = s.authedConnId := congrArg Watch.kind hw
  rw [hv, hk]
  by_cases hsvc : svc.watched = true
  · have hmem : svc ∈ s'.subs.filter Service.watched := List.mem_filter.mpr ⟨hm, hsvc⟩
    rw [show s'.subs.filter Service.watched = s.subs.filter Service.watched from
      congrArg Watch.subs hw] at hmem
    exact h svc (List.mem_filter.mp hmem).1
  · exact allowed_of_not_watched (by simpa using hsvc)

theorem delivered_of_remote (h : s.authedConnId = some .remote) : Delivered s := by
  intro svc _
  rw [h]
  exact allowed_remote svc

/-! ### Subscribing -/

theorem watch_subscribe {svc : Service} (hsvc : svc.watched = false) (sub : Bool) :
    (s.subscribe env svc sub).watch = s.watch := by
  unfold subscribe
  split_ifs
  · simp [watch, hsvc]
  · rfl
  · have hfilter : (s.subs.filter (· ≠ svc)).filter Service.watched =
        s.subs.filter Service.watched := by
      rw [List.filter_filter]
      refine List.filter_congr fun x _ => ?_
      by_cases hx : x = svc
      · simp [hx, hsvc]
      · simp [hx]
    simp only [watch]
    rw [hfilter]

theorem watch_onlyIf {c : Bool} {f : Connection → Connection} (h : (f s).watch = s.watch) :
    (s.onlyIf c f).watch = s.watch := by
  unfold onlyIf
  split_ifs
  · exact h
  · rfl

theorem watch_applyBool {raw : Int} {f : Bool → Connection → Connection}
    (h : ∀ q, (f q s).watch = s.watch) : (s.applyBool raw f).watch = s.watch := by
  unfold applyBool
  split
  · exact h true
  · exact h false
  · rfl

theorem watch_trySubCameraDisplays : (s.trySubCameraDisplays env).watch = s.watch := by
  unfold trySubCameraDisplays
  split
  · dsimp only [watch]
    split
    · rfl
    · rw [List.filter_cons_of_neg (by simp [Service.watched])]
  · rfl

theorem filter_captureServices (source : VideoSource) (displays : List Nat) (incl excl : Bool)
    (subs : List Service) : (captureServices source displays incl excl subs).filter Service.watched =
      subs.filter Service.watched := by
  unfold captureServices
  extract_lets names kept
  have hkept : kept.filter Service.watched = subs.filter Service.watched := by
    unfold kept
    split_ifs
    · rw [List.filter_filter]
      refine List.filter_congr fun x _ => ?_
      cases x <;> simp [Service.watched, isVideoService]
    · rfl
  split_ifs
  · rw [List.filter_append, hkept]
    have hnil : (names.dedup.filter fun n => !kept.contains n).filter Service.watched = [] := by
      rw [List.filter_eq_nil_iff]
      intro x hx
      have hmem : x ∈ names := List.mem_dedup.mp (List.mem_filter.mp hx).1
      obtain ⟨d, -, rfl⟩ := List.mem_map.mp hmem
      simp [Service.watched]
    rw [hnil, List.nil_append]
  · exact hkept

theorem watch_captureDisplays (add sub set : List Int) :
    (s.captureDisplays env add sub set).watch = s.watch := by
  unfold captureDisplays
  split
  · extract_lets subs s₁
    have hsubs : subs.filter Service.watched = s.subs.filter Service.watched := by
      unfold subs
      split_ifs <;> exact filter_captureServices _ _ _ _ _
    have h₁ : s₁.watch = s.watch := by
      unfold s₁
      simp only [watch]
      rw [hsubs]
    split_ifs
    · rw [watch_subscribe rfl, h₁]
    · exact h₁
  · rfl

/-! ### Handlers of a session -/

theorem watch_turnOnPrivacy (implKey : String) : (s.turnOnPrivacy env implKey).watch = s.watch := by
  unfold turnOnPrivacy
  split_ifs <;> rfl

theorem watch_turnOffPrivacy (implKey : String) :
    (s.turnOffPrivacy env implKey).watch = s.watch := by
  unfold turnOffPrivacy
  split_ifs <;> rfl

theorem watch_onTestDelay (t : TestDelay) : (s.onTestDelay env t).watch = s.watch := by
  unfold onTestDelay
  split
  · rfl
  · split <;> rfl

theorem watch_onMouseEvent (me : MouseEvent) : (s.onMouseEvent b me).watch = s.watch := by
  unfold onMouseEvent
  split_ifs <;> rfl

theorem watch_onPointerDeviceEvent (scale : Int) :
    (s.onPointerDeviceEvent b scale).watch = s.watch := by
  unfold onPointerDeviceEvent
  split_ifs <;> rfl

theorem watch_trackModifier (key : Option Nat) (isPress : Bool) :
    (s.trackModifier key isPress).watch = s.watch := by
  unfold trackModifier
  split <;> rfl

theorem watch_onKeyEvent (ke : KeyEvent) : (s.onKeyEvent b env ke).watch = s.watch := by
  unfold onKeyEvent
  split
  · rfl
  · extract_lets key pressed
    split
    · exact watch_trackModifier key pressed
    · split
      · exact watch_trackModifier key _
      · rfl

theorem watch_onClipboard : s.onClipboard.watch = s.watch := by
  unfold onClipboard
  split <;> rfl

theorem watch_foldl_send {α : Type*} (f : α → Outgoing) (l : List α) :
    (l.foldl (fun s x => s.send (f x)) s).watch = s.watch := by
  induction l generalizing s with
  | nil => rfl
  | cons x l ih => exact ih

theorem watch_onCliprdr (files : Bool) : (s.onCliprdr b env files).watch = s.watch := by
  unfold onCliprdr
  split
  · rfl
  · extract_lets s₁
    have h₁ : s₁.watch = s.watch := by
      unfold s₁
      split <;> rfl
    split
    · exact (watch_foldl_send (fun _ => .cliprdr) _).trans h₁
    · exact h₁

theorem watch_createAndStartReadJob (env : Env) (id : Int) (path : String) (hidden check : Bool) :
    (s.createAndStartReadJob env id path hidden check).watch = s.watch := by
  unfold createAndStartReadJob
  split
  · rfl
  · split <;> rfl

theorem watch_onFileSend (id : Int) (path : String) (hidden : Bool) (fileNum : Int)
    (printer : Bool) : (s.onFileSend env id path hidden fileNum printer).watch = s.watch := by
  unfold onFileSend
  split
  · split
    · exact watch_createAndStartReadJob env id path hidden false
    · rfl
  · split
    · rfl
    · exact watch_createAndStartReadJob env id path hidden true

theorem watch_onAllFiles (id : Int) (path : String) (hidden : Bool) :
    (s.onAllFiles env id path hidden).watch = s.watch := by
  unfold onAllFiles
  split
  · rfl
  · split
    · rfl
    · split <;> rfl

theorem watch_onFileCancel (id : Int) : (s.onFileCancel id).watch = s.watch := by
  unfold onFileCancel
  extract_lets s₁ s₂
  have h₁ : s₁.watch = s.watch := watch_sendFs _
  clear_value s₁
  have h₂ : s₂.watch = s₁.watch := watch_sendFs _
  clear_value s₂
  rw [← h₁, ← h₂]
  split
  · exact watch_sendToCm _
  · rfl

theorem watch_onFileSendConfirm (c : SendConfirm) : (s.onFileSendConfirm c).watch = s.watch := by
  unfold onFileSendConfirm
  split_ifs <;> rfl

theorem watch_executeFileAction (fa : FileAction) :
    (s.executeFileAction env fa).watch = s.watch := by
  cases fa with
  | send id path hidden fileNum fileType => exact watch_onFileSend id path hidden fileNum _
  | allFiles id path hidden => exact watch_onAllFiles id path hidden
  | cancel id => exact watch_onFileCancel id
  | sendConfirm c => exact watch_onFileSendConfirm c
  | receive id path files fileNum totalSize =>
    unfold executeFileAction
    extract_lets s₁
    have h₁ : s₁.watch = s.watch := watch_emit _
    clear_value s₁
    rw [← h₁]
    rfl
  | create id path => exact (watch_sendToCm _).trans ((watch_sendFs _).trans (watch_emit _))
  | rename id path newName => exact (watch_sendToCm _).trans ((watch_sendFs _).trans (watch_emit _))
  | _ => rfl

theorem watch_onFileAction (fa : FileAction) : (s.onFileAction env fa).watch = s.watch := by
  unfold onFileAction
  split
  · split
    · split <;> rfl
    · split
      · rfl
      · exact watch_executeFileAction fa
  · rfl

theorem watch_onFileResponse (fr : FileResponse) : (s.onFileResponse fr).watch = s.watch := by
  cases fr <;> rfl

theorem watch_changeResolution (display : Option Int) (width height : Int) :
    (s.changeResolution env display width height).watch = s.watch := by
  unfold changeResolution
  extract_lets d
  split <;> rfl

theorem watch_sendDisplayChanged (display : Nat) :
    (s.sendDisplayChanged env display).watch = s.watch := by
  unfold sendDisplayChanged
  split <;> rfl

theorem watch_switchDisplayTo (display : Nat) : (s.switchDisplayTo env display).watch = s.watch := by
  unfold switchDisplayTo
  extract_lets old s₁ svc s₂
  have h₁ : s₁.watch = s.watch := by
    unfold s₁
    split
    · exact watch_subscribe rfl false
    · rfl
  have h₂ : s₂.watch = s₁.watch := by
    unfold s₂
    split
    · dsimp only [watch]
      split
      · rfl
      · rw [List.filter_cons_of_neg (by simp [svc, Service.watched])]
    · exact watch_subscribe rfl true
  exact h₂.trans h₁

theorem watch_handleSwitchDisplay (display width height : Int) :
    (s.handleSwitchDisplay b env display width height).watch = s.watch := by
  unfold handleSwitchDisplay
  extract_lets d s₁ s₂
  split
  · have h₂ : s₂.watch = s.watch := by
      unfold s₂
      split
      · split
        · exact (watch_changeResolution none width height).trans (watch_switchDisplayTo d)
        · exact watch_switchDisplayTo d
      · rfl
    exact (watch_sendDisplayChanged _).trans h₂
  · rfl

theorem watch_handleElevationRequest : (s.handleElevationRequest env).watch = s.watch := by
  unfold handleElevationRequest
  split_ifs <;> rfl

theorem watch_toggleVirtualDisplay (display : Int) (on : Bool) :
    (s.toggleVirtualDisplay env display on).watch = s.watch := by
  unfold toggleVirtualDisplay
  extract_lets err s₁
  split <;> rfl

theorem watch_handleTerminalAction (a : TerminalAction) :
    (s.handleTerminalAction b a).watch = s.watch := by
  unfold handleTerminalAction
  split
  · rfl
  · split <;> rfl

theorem watch_onAudioFrame : s.onAudioFrame.watch = s.watch := by
  unfold onAudioFrame
  split <;> rfl

theorem watch_onClose (lock : Bool) : (s.onClose b lock).watch = s.watch := by
  unfold onClose
  split
  · rfl
  · extract_lets s₁ s₂ s₃
    have h₂ : s₂.watch = s.watch := by
      unfold s₂
      split
      · exact watch_emit _
      · rfl
    clear_value s₂
    have h₃ : s₃.watch = s₂.watch := watch_sendToCm _
    clear_value s₃
    rw [← h₂, ← h₃]
    rfl

theorem watch_checkRemoveSession : (s.checkRemoveSession env).watch = s.watch := by
  unfold checkRemoveSession
  split <;> rfl

theorem watch_sendCloseReasonNoRetry (reason : String) :
    (s.sendCloseReasonNoRetry env reason).watch = s.watch :=
  watch_checkRemoveSession

theorem watch_handleAuthorizedScopeViolation (message : String) :
    (s.handleAuthorizedScopeViolation b env message).1.watch = s.watch := by
  unfold handleAuthorizedScopeViolation
  extract_lets isFirst s₁ s₂
  have h₂ : s₂.watch = s.watch := by
    unfold s₂ s₁
    split_ifs <;> rfl
  split
  · exact (watch_onClose true).trans ((watch_sendCloseReasonNoRetry _).trans h₂)
  · exact h₂

/-! ### Services that depend on the session -/

theorem delivered_subscribe {svc : Service} {sub : Bool} (h : Delivered s)
    (hsub : sub = true → env.serverAlive = true → env.hasService svc = true →
      svc.Allowed s.authedConnId s.voiceCalling) : Delivered (s.subscribe env svc sub) := by
  unfold subscribe
  split_ifs with h₁ h₂
  · simp only [Bool.and_eq_true] at h₂
    intro x hx
    rcases List.mem_cons.mp hx with rfl | hx
    · exact hsub h₁ h₂.1.1 h₂.1.2
    · exact h x hx
  · exact h
  · intro x hx
    exact h x (List.mem_filter.mp hx).1

theorem delivered_subscribeAudio (h : Delivered s)
    (hk : s.authedConnId = some .remote ∨ s.authedConnId = some .viewCamera) :
    Delivered (s.subscribeAudio env) := by
  unfold subscribeAudio
  split
  · rename_i hcam
    split
    · rename_i hvoice
      refine delivered_subscribe h fun hsub _ _ => .inr ⟨?_, ?_⟩
      · simpa [isAuthedViewCameraConn] using hcam
      · simpa [hsub] using hvoice
    · exact h
  · rename_i hcam
    refine delivered_subscribe h fun _ _ _ => .inl (hk.resolve_right ?_)
    simpa [isAuthedViewCameraConn] using hcam

theorem delivered_trySubMonitorServices (h : Delivered s)
    (hk : s.isRemote = true → s.authedConnId = some .remote) :
    Delivered (s.trySubMonitorServices b env) := by
  by_cases hr : s.isRemote = true
  · refine delivered_of_remote ?_
    have hc : (s.trySubMonitorServices b env).core = s.core :=
      (frame_trySubMonitorServices (k := fun _ => True)).1
    exact (congrArg Core.authedConnId hc).trans (hk hr)
  · unfold trySubMonitorServices
    simpa [hr] using h

/-- A voice call begins or ends: a camera session takes the audio along. -/
theorem delivered_voiceCalling {voiceCalling sub : Bool} (h : Delivered s)
    (hsub : sub = true → voiceCalling = true) :
    Delivered (if ({ s with voiceCalling } : Connection).isAuthedViewCameraConn then
      ({ s with voiceCalling } : Connection).subscribe env .audio sub else { s with voiceCalling }) := by
  have hother : ∀ svc ∈ s.subs, svc ≠ .audio → svc.Allowed s.authedConnId voiceCalling := by
    intro svc hm hne
    have hall := h svc hm
    cases svc <;> first | exact hall | exact absurd rfl hne
  split
  · rename_i hcam
    have hk : s.authedConnId = some .viewCamera := by
      simpa [isAuthedViewCameraConn] using hcam
    cases voiceCalling with
    | true =>
      refine delivered_subscribe (fun svc hm => ?_) fun _ _ _ => .inr ⟨hk, rfl⟩
      by_cases hne : svc = .audio
      · subst hne
        exact .inr ⟨hk, rfl⟩
      · exact hother svc hm hne
    | false =>
      cases sub with
      | true => cases hsub rfl
      | false =>
        intro svc hm
        have hm' := List.mem_filter.mp hm
        exact hother svc hm'.1 (by simpa using hm'.2)
  · rename_i hcam
    have hk : s.authedConnId ≠ some .viewCamera := by
      simpa [isAuthedViewCameraConn] using hcam
    intro svc hm
    by_cases hne : svc = .audio
    · subst hne
      exact .inl ((h .audio hm).resolve_right fun hv => hk hv.1)
    · exact hother svc hm hne

theorem delivered_handleVoiceCall (accepted : Bool) (h : Delivered s) :
    Delivered (s.handleVoiceCall env accepted) := by
  unfold handleVoiceCall
  split
  · rename_i ts _
    extract_lets s₁ s₂ s₃
    have h₂ : Delivered (s₂.send (.voiceCallResponse ts accepted)) :=
      delivered_of_watch (s := s) rfl h
    exact delivered_voiceCalling h₂ fun hsub => (Bool.and_eq_true_iff.mp hsub).2
  · exact h

theorem delivered_closeVoiceCall (h : Delivered s) : Delivered (s.closeVoiceCall env) := by
  have h₁ : Delivered (s.sendToCm .closeVoiceCall) := delivered_of_watch rfl h
  exact delivered_voiceCalling h₁ fun hsub => by cases hsub

/-! ### Options -/

theorem watch_setImageQuality (o : OptionMessage) : (s.setImageQuality o).watch = s.watch := by
  unfold setImageQuality
  split
  · extract_lets iq
    split <;> rfl
  · rfl

theorem watch_setCustomFps (o : OptionMessage) : (s.setCustomFps o).watch = s.watch := by
  unfold setCustomFps
  split <;> rfl

theorem watch_setSupportedDecoding (o : OptionMessage) :
    (s.setSupportedDecoding o).watch = s.watch := by
  unfold setSupportedDecoding
  split <;> rfl

theorem applyBool_notSet (f : Bool → Connection → Connection) : s.applyBool 0 f = s := rfl

theorem onlyIf_applyBool_notSet (c : Bool) (f : Bool → Connection → Connection) :
    s.onlyIf c (applyBool 0 f) = s := by
  cases c <;> rfl

theorem updatePrivacyOption_notSet {o : OptionMessage} (h : o.privacyMode = 0) :
    s.updatePrivacyOption env o = s := by
  unfold updatePrivacyOption
  rw [h]
  split <;> rfl

theorem updateBlockInput_notSet {o : OptionMessage} (h : o.blockInput = 0) :
    s.updateBlockInput o = s := by
  unfold updateBlockInput
  rw [h]
  rfl

/-- The options of a camera session change no subscription but that of the audio. -/
theorem delivered_updateOptions_camera {o kept : OptionMessage} (h : Delivered s)
    (hk : s.authedConnId = some .viewCamera) (ho : (scopedViewCameraOption o).1 = some kept) :
    Delivered (s.updateOptions b env kept) := by
  obtain ⟨iq, ciq, fps, audio, dec, rfl⟩ := scopedViewCameraOption_eq ho
  unfold updateOptions
  simp only [applyBool_notSet, onlyIf_applyBool_notSet, updatePrivacyOption_notSet,
    updateBlockInput_notSet]
  generalize hs₁ : ((s.setImageQuality _).setCustomFps _).setSupportedDecoding _ = s₁
  have hw : s₁.watch = s.watch := by
    rw [← hs₁, watch_setSupportedDecoding, watch_setCustomFps, watch_setImageQuality]
  have h₁ : Delivered s₁ := delivered_of_watch hw h
  have hk₁ : s₁.authedConnId = some .viewCamera := (congrArg Watch.kind hw).trans hk
  have haudio : ∀ q, Delivered (s₁.setDisableAudio env q) := fun q =>
    delivered_subscribeAudio (delivered_of_watch rfl h₁) (.inr hk₁)
  unfold applyBool
  split
  · exact haudio true
  · exact haudio false
  · exact h₁

theorem watch_updateOptions_terminal {o kept : OptionMessage}
    (ho : (scopedTerminalLoginOption o).1 = some kept) :
    (s.updateOptions b env kept).watch = s.watch := by
  obtain ⟨p, rfl⟩ := scopedTerminalLoginOption_eq ho
  unfold updateOptions
  simp only [applyBool_notSet, onlyIf_applyBool_notSet, updatePrivacyOption_notSet,
    updateBlockInput_notSet]
  rw [watch_onlyIf (watch_applyBool fun _ => rfl), watch_setSupportedDecoding, watch_setCustomFps,
    watch_setImageQuality]

theorem delivered_updateOptions_remote (o : OptionMessage) (hk : s.authedConnId = some .remote) :
    Delivered (s.updateOptions b env o) := by
  have hc : (s.updateOptions b env o).core = s.core :=
    (frame_updateOptions (k := fun _ => True) o fun _ => trivial).1
  exact delivered_of_remote ((congrArg Core.authedConnId hc).trans hk)

theorem delivered_onOption (o : OptionMessage) (h : Delivered s) :
    Delivered (s.onOption b env o) := by
  unfold onOption
  split
  · rename_i hk
    exact delivered_updateOptions_remote o hk
  · split
    · rename_i kept hkept
      unfold scopedUpdateOptionMessage at hkept
      split at hkept
      · rename_i hk
        exact delivered_updateOptions_camera h hk hkept
      · exact delivered_of_watch (watch_updateOptions_terminal hkept) h
      · cases hkept
    · exact h

/-! ### Messages of a session -/

theorem delivered_onSelectedSid (sid : Nat) (h : Delivered s)
    (hk : s.isRemote = true → s.authedConnId = some .remote) :
    Delivered (s.onSelectedSid b env sid).1 := by
  unfold onSelectedSid
  split
  · exact h
  split
  · exact delivered_of_watch (s := s) rfl h
  split
  · split
    · exact delivered_of_watch (s := s) rfl h
    · exact h
  split
  · exact delivered_of_watch watch_trySubCameraDisplays h
  split
  · exact delivered_trySubMonitorServices h hk
  · exact h

theorem delivered_onMiscMessage (m : Misc) (h : Delivered s) :
    Delivered (s.onMiscMessage b env m) := by
  have hsame : ∀ {s'}, s'.watch = s.watch → Delivered s' := fun hw => delivered_of_watch hw h
  cases m with
  | option o => exact delivered_onOption o h
  | switchDisplay display width height => exact hsame (watch_handleSwitchDisplay display width height)
  | captureDisplays add sub set => exact hsame (watch_captureDisplays add sub set)
  | toggleVirtualDisplay display on =>
    dsimp only [onMiscMessage]
    split
    · exact hsame (watch_toggleVirtualDisplay display on)
    · exact h
  | togglePrivacyMode implKey on =>
    dsimp only [onMiscMessage]
    split
    · exact h
    split
    · exact hsame (watch_turnOnPrivacy implKey)
    · exact hsame (watch_turnOffPrivacy implKey)
  | elevationDirect =>
    dsimp only [onMiscMessage]
    split
    · exact hsame watch_handleElevationRequest
    · exact h
  | elevationLogon username password =>
    dsimp only [onMiscMessage]
    split
    · exact hsame watch_handleElevationRequest
    · exact h
  | changeResolution width height =>
    dsimp only [onMiscMessage]
    split
    · exact hsame (watch_changeResolution none width height)
    · exact h
  | changeDisplayResolution display width height =>
    dsimp only [onMiscMessage]
    split
    · exact hsame (watch_changeResolution (some display) width height)
    · exact h
  | messageQuery display => exact hsame (watch_sendDisplayChanged _)
  | _ =>
    dsimp only [onMiscMessage]
    first
      | exact hsame rfl
      | (split <;> exact hsame rfl)

theorem delivered_onMisc (m : Misc) (h : Delivered s)
    (hk : s.isRemote = true → s.authedConnId = some .remote) :
    Delivered (s.onMisc b env m).1 := by
  unfold onMisc
  split
  · split
    · exact delivered_of_watch (watch_onClose false) (delivered_of_watch (s := s) rfl h)
    · exact h
  · split
    · exact delivered_onSelectedSid _ h hk
    · exact h
  · exact delivered_onMiscMessage _ h

theorem delivered_onSessionMessage (m : Message) (h : Delivered s)
    (hk : s.isRemote = true → s.authedConnId = some .remote) :
    Delivered (s.onSessionMessage b env m).1 := by
  have hsame : ∀ {s'}, s'.watch = s.watch → Delivered s' := fun hw => delivered_of_watch hw h
  cases m with
  | mouseEvent me => exact hsame (watch_onMouseEvent me)
  | pointerDeviceEvent scale => exact hsame (watch_onPointerDeviceEvent scale)
  | keyEvent ke => exact hsame (watch_onKeyEvent ke)
  | clipboard content => exact hsame watch_onClipboard
  | multiClipboards contents => exact hsame watch_onClipboard
  | cliprdr files =>
    dsimp only [onSessionMessage]
    split
    · exact hsame (watch_onCliprdr files)
    · exact h
  | fileAction fa => exact hsame (watch_onFileAction fa)
  | fileResponse fr => exact hsame (watch_onFileResponse fr)
  | misc m => exact delivered_onMisc m h hk
  | audioFrame data => exact hsame watch_onAudioFrame
  | voiceCallRequest ts isConnect =>
    dsimp only [onSessionMessage, onVoiceCallRequest]
    split
    · exact hsame rfl
    · exact delivered_closeVoiceCall h
  | terminalAction a => exact hsame (watch_handleTerminalAction a)
  | _ => exact hsame rfl

end Subscriptions

end RustDesk
