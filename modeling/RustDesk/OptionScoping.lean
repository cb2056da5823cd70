import RustDesk.Subscriptions

/-!
# The options of a limited session

An option message reaches `update_options` twice: with the login request, and later as a
`Misc` message. A session that is not a remote control gets what is left of the message by
its scope, and a `Misc` message with other fields is refused as a whole. The field lists of
the filter, of the test for a violation and of `update_options` itself are kept by hand.
-/

namespace RustDesk

open Connection Subscriptions

/-- What the picture of a camera session is adjusted by. -/
def Effect.adjustsVideo : Effect → Bool
  | .imageQuality _ => true
  | .customFps _ => true
  | .updateDecoding _ => true
  | _ => false

/-- What `update_options` does to the outside. -/
def Effect.ofOption : Effect → Bool
  | .imageQuality _ => true
  | .customFps _ => true
  | .updateDecoding _ => true
  | .toCm (.clipboardFileEnabled _) => true
  | .turnOnPrivacy _ => true
  | .turnOffPrivacy _ => true
  | .send (.privacyMode ..) => true
  | .blockInput _ => true
  | .send (.blockInputFailed ..) => true
  | .setPersistent .. => true
  | .whiteboard _ => true
  | .send (.messageBox ..) => true
  | _ => false

namespace Connection

/-- The changes that the options of a session of the kind may make. Everything that is not
named is as it was. -/
inductive OptionChange (s : Connection) : AuthConnType → Connection → Prop
  | camera (disableAudio : Bool) (subs : List Service) (new : List Effect) :
      (∀ svc, svc ≠ .audio → (svc ∈ subs ↔ svc ∈ s.subs)) →
      (∀ e ∈ new, e.adjustsVideo = true) →
      OptionChange s .viewCamera
        { s with opts := { s.opts with disableAudio }, subs, log := new ++ s.log }
  | terminal (terminalPersistent : Bool) (new : List Effect) :
      (∀ e ∈ new, e = .setPersistent s.terminalServiceId terminalPersistent) →
      OptionChange s .terminal { s with terminalPersistent, log := new ++ s.log }
  | nothing (kind : AuthConnType) : OptionChange s kind s

/-- The state that options control. -/
structure Controlled where
  opts : PeerOptions
  terminalPersistent : Bool
  subs : List Service
  effects : List Effect

def controlled (s : Connection) : Controlled :=
  { opts := s.opts
    terminalPersistent := s.terminalPersistent
    subs := s.subs
    effects := s.log.filter Effect.ofOption }

variable {b : Build} {env : Env} {s : Connection}

/-! ### The picture -/

/-- `s'` is `s` with some adjustments of the picture. -/
def Adjusted (s s' : Connection) : Prop :=
  ∃ new, s' = { s with log := new ++ s.log } ∧ ∀ e ∈ new, e.adjustsVideo = true

theorem Adjusted.refl (s : Connection) : Adjusted s s := ⟨[], rfl, by simp⟩

theorem Adjusted.trans {s₁ s₂ s₃ : Connection} (h₁ : Adjusted s₁ s₂) (h₂ : Adjusted s₂ s₃) :
    Adjusted s₁ s₃ := by
  obtain ⟨new₁, rfl, hnew₁⟩ := h₁
  obtain ⟨new₂, rfl, hnew₂⟩ := h₂
  refine ⟨new₂ ++ new₁, by simp, fun e he => ?_⟩
  rcases List.mem_append.mp he with he | he
  · exact hnew₂ e he
  · exact hnew₁ e he

theorem adjusted_emit {e : Effect} (h : e.adjustsVideo = true) : Adjusted s (s.emit e) := by
  refine ⟨[e], rfl, fun x hx => ?_⟩
  rw [List.mem_singleton.mp hx]
  exact h

theorem adjusted_setImageQuality (o : OptionMessage) : Adjusted s (s.setImageQuality o) := by
  unfold setImageQuality
  split
  · extract_lets iq
    split
    · exact adjusted_emit rfl
    · exact .refl s
  · exact .refl s

theorem adjusted_setCustomFps (o : OptionMessage) : Adjusted s (s.setCustomFps o) := by
  unfold setCustomFps
  split
  · exact adjusted_emit rfl
  · exact .refl s

theorem adjusted_setSupportedDecoding (o : OptionMessage) :
    Adjusted s (s.setSupportedDecoding o) := by
  unfold setSupportedDecoding
  split
  · exact adjusted_emit rfl
  · exact .refl s

/-! ### What is left of a message -/

theorem subscribe_eq (env : Env) (s : Connection) (svc : Service) (sub : Bool) :
    ∃ subs, s.subscribe env svc sub = { s with subs } ∧
      ∀ x, x ≠ svc → (x ∈ subs ↔ x ∈ s.subs) := by
  unfold subscribe
  split
  · split
    · exact ⟨_, rfl, fun x hx => by simp [hx]⟩
    · exact ⟨s.subs, rfl, fun x _ => Iff.rfl⟩
  · exact ⟨_, rfl, fun x hx => by simp [hx]⟩

theorem subscribeAudio_eq (env : Env) (s : Connection) :
    ∃ subs, s.subscribeAudio env = { s with subs } ∧
      ∀ x, x ≠ Service.audio → (x ∈ subs ↔ x ∈ s.subs) := by
  unfold subscribeAudio
  split
  · split
    · exact subscribe_eq env s .audio _
    · exact ⟨s.subs, rfl, fun x _ => Iff.rfl⟩
  · exact subscribe_eq env s .audio _

theorem optionChange_setDisableAudio {s₁ : Connection} (h : Adjusted s s₁) (q : Bool) :
    OptionChange s .viewCamera (s₁.setDisableAudio env q) := by
  obtain ⟨new, rfl, hnew⟩ := h
  unfold setDisableAudio
  obtain ⟨subs, heq, hsubs⟩ :=
    subscribeAudio_eq env (mapOpts ({ · with disableAudio := q }) { s with log := new ++ s.log })
  rw [heq]
  exact .camera q subs new hsubs hnew

theorem optionChange_camera {o kept : OptionMessage} (h : (scopedViewCameraOption o).1 = some kept) :
    OptionChange s .viewCamera (s.updateOptions b env kept) := by
  obtain ⟨iq, ciq, fps, audio, dec, rfl⟩ := scopedViewCameraOption_eq h
  unfold updateOptions
  simp only [applyBool_notSet, onlyIf_applyBool_notSet, updatePrivacyOption_notSet,
    updateBlockInput_notSet]
  generalize hs₁ : ((s.setImageQuality _).setCustomFps _).setSupportedDecoding _ = s₁
  have hadj : Adjusted s s₁ := by
    rw [← hs₁]
    exact ((adjusted_setImageQuality _).trans (adjusted_setCustomFps _)).trans
      (adjusted_setSupportedDecoding _)
  unfold applyBool
  split
  · exact optionChange_setDisableAudio hadj true
  · exact optionChange_setDisableAudio hadj false
  · obtain ⟨new, rfl, hnew⟩ := hadj
    exact .camera s.opts.disableAudio s.subs new (fun _ _ => Iff.rfl) hnew

theorem optionChange_terminal {o kept : OptionMessage}
    (h : (scopedTerminalLoginOption o).1 = some kept) :
    OptionChange s .terminal (s.updateOptions b env kept) := by
  obtain ⟨p, rfl⟩ := scopedTerminalLoginOption_eq h
  have hvideo : ∀ o : OptionMessage, o.imageQuality = 0 → o.customImageQuality = 0 →
      o.customFps = 0 → o.supportedDecoding = none →
      ((s.setImageQuality o).setCustomFps o).setSupportedDecoding o = s := by
    intro o hq hciq hfps hdec
    simp [setImageQuality, setCustomFps, setSupportedDecoding, hq, hciq, hfps, hdec,
      ImageQuality.enumValue]
  have hset : ∀ q, OptionChange s .terminal (s.updateTerminalPersistence q) := fun q =>
    .terminal q [.setPersistent s.terminalServiceId q] fun e he => List.mem_singleton.mp he
  unfold updateOptions
  simp only [applyBool_notSet, onlyIf_applyBool_notSet, updatePrivacyOption_notSet,
    updateBlockInput_notSet]
  rw [hvideo _ rfl rfl rfl rfl]
  unfold onlyIf
  split
  · unfold applyBool
    split
    · exact hset true
    · exact hset false
    · exact .nothing .terminal
  · exact .nothing .terminal

/-! ### The two ways in -/

theorem optionChange_updateScopedLoginOptions {kind : AuthConnType}
    (hk : s.authedConnId = some kind) (hne : kind ≠ .remote) :
    OptionChange { s with optionsInLogin := none } kind (s.updateScopedLoginOptions b env) := by
  unfold updateScopedLoginOptions
  split
  · rename_i hnone
    have hsame : { s with optionsInLogin := none } = s := by rw [← hnone]
    rw [hsame]
    exact .nothing kind
  · rename_i o hsome
    simp only [hk]
    split
    · rename_i kept hkept
      cases kind with
      | remote => exact absurd rfl hne
      | viewCamera => exact optionChange_camera hkept
      | terminal => exact optionChange_terminal hkept
      | fileTransfer => cases hkept
      | portForward => cases hkept
    · exact .nothing kind

theorem optionChange_onOption {kind : AuthConnType} (o : OptionMessage)
    (hk : s.authedConnId = some kind) (hne : kind ≠ .remote) :
    OptionChange s kind (s.onOption b env o) := by
  have hremote : s.authedConnId ≠ some .remote := by
    rw [hk]
    exact fun h => hne (Option.some.inj h)
  unfold onOption
  rw [if_neg hremote]
  split
  · rename_i kept hkept
    unfold scopedUpdateOptionMessage at hkept
    rw [hk] at hkept
    cases kind with
    | remote => exact absurd rfl hne
    | viewCamera => exact optionChange_camera hkept
    | terminal => exact optionChange_terminal hkept
    | fileTransfer => cases hkept
    | portForward => cases hkept
  · exact .nothing kind

theorem controlled_emit {e : Effect} (h : e.ofOption = false) :
    (s.emit e).controlled = s.controlled := by
  simp [controlled, emit, h]

theorem controlled_onClose (lock : Bool) : (s.onClose b lock).controlled = s.controlled := by
  unfold onClose
  split
  · rfl
  · extract_lets s₁ s₂ s₃
    have h₂ : s₂.controlled = s₁.controlled := by
      unfold s₂
      split
      · exact controlled_emit rfl
      · rfl
    have h₃ : s₃.controlled = s₂.controlled := by
      refine controlled_emit ?_
      split <;> rfl
    exact h₃.trans h₂

theorem controlled_sendCloseReasonNoRetry (reason : String) :
    (s.sendCloseReasonNoRetry env reason).controlled = s.controlled := by
  have hremove : ∀ s : Connection, (s.checkRemoveSession env).controlled = s.controlled := by
    intro s
    unfold checkRemoveSession
    split <;> rfl
  unfold sendCloseReasonNoRetry
  rw [hremove]
  exact controlled_emit rfl

/-- A refused message changes nothing that options control, also when it ends the session. -/
theorem controlled_handleAuthorizedScopeViolation (message : String) :
    (s.handleAuthorizedScopeViolation b env message).1.controlled = s.controlled := by
  unfold handleAuthorizedScopeViolation
  extract_lets isFirst s₁ s₂
  have h₁ : s₁.controlled = s.controlled := by
    unfold s₁
    split <;> rfl
  have h₂ : s₂.controlled = s₁.controlled := by
    unfold s₂
    split
    · exact controlled_emit rfl
    · rfl
  split
  · rw [controlled_onClose, controlled_sendCloseReasonNoRetry, h₂, h₁]
  · rw [h₂, h₁]

theorem onMessage_option (b : Build) (env : Env) (o : OptionMessage) (ha : s.authorized = true) :
    (∃ message, s.authorizedScopeViolation b (.misc (.option o)) = some message ∧
      (s.onMessage b env (.misc (.option o))).1 =
        (s.handleAuthorizedScopeViolation b env message).1) ∨
    s.authorizedScopeViolation b (.misc (.option o)) = none ∧
      ((s.onMessage b env (.misc (.option o))).1 = s.onOption b env o ∨
        (s.onMessage b env (.misc (.option o))).1 = s) := by
  simp only [onMessage, isCloseReason, isLoginRequest, ha, Bool.and_false, Bool.false_eq_true,
    if_false, if_true]
  split
  · rename_i message hm
    exact .inl ⟨message, hm, rfl⟩
  · rename_i hm
    refine .inr ⟨hm, ?_⟩
    simp only [dispatch, ha, Bool.true_and]
    split
    · exact .inl rfl
    · exact .inr rfl

/-- For every option message, what an authorized session that is no remote control gets of
it changes only what its kind allows, with the login request and as a message of its own. A
message that is refused changes nothing that options control. -/
theorem optionChange_of_limited (b : Build) (env : Env) (s : Connection) (kind : AuthConnType)
    (o : OptionMessage) (ha : s.authorized = true) (hk : s.authedConnId = some kind)
    (hne : kind ≠ .remote) :
    OptionChange { s with optionsInLogin := none } kind
        ({ s with optionsInLogin := some o }.updateScopedLoginOptions b env) ∧
      (s.authorizedScopeViolation b (.misc (.option o)) = none →
        OptionChange s kind (s.onMessage b env (.misc (.option o))).1) ∧
      (s.authorizedScopeViolation b (.misc (.option o)) ≠ none →
        (s.onMessage b env (.misc (.option o))).1.controlled = s.controlled) := by
  refine ⟨?_, fun hnone => ?_, fun hsome => ?_⟩
  · have hk' : { s with optionsInLogin := some o }.authedConnId = some kind := hk
    exact optionChange_updateScopedLoginOptions hk' hne
  · rcases onMessage_option b env o ha with ⟨message, hm, -⟩ | ⟨-, heq | heq⟩
    · rw [hnone] at hm
      cases hm
    · rw [heq]
      exact optionChange_onOption o hk hne
    · rw [heq]
      exact .nothing kind
  · rcases onMessage_option b env o ha with ⟨message, -, heq⟩ | ⟨hm, -⟩
    · rw [heq]
      exact controlled_handleAuthorizedScopeViolation message
    · exact absurd hm hsome

def cameraSession : Connection :=
  { Connection.start ⟨.linux, true, false, false⟩ {} 1 ⟨"", ""⟩ none none with
    authorized := true
    authedConnId := some .viewCamera
    viewCamera := true }

/-- The picture and the muting pass, an unknown quality is dropped, and the message that also
blocks the input is refused. -/
theorem optionChange_cameraSession :
    let b : Build := ⟨.linux, true, false, false⟩
    let o : OptionMessage := { imageQuality := 7, customFps := 24, disableAudio := 2 }
    (cameraSession.authorizedScopeViolation b (.misc (.option o)) = none ∧
      OptionChange cameraSession .viewCamera
        (cameraSession.onMessage b {} (.misc (.option o))).1) ∧
    (cameraSession.authorizedScopeViolation b (.misc (.option { o with blockInput := 2 })) ≠ none ∧
      (cameraSession.onMessage b {} (.misc (.option { o with blockInput := 2 }))).1.controlled =
        cameraSession.controlled) := by
  intro b o
  have hpass : cameraSession.authorizedScopeViolation b (.misc (.option o)) = none := by decide
  have hrefuse : cameraSession.authorizedScopeViolation b
      (.misc (.option { o with blockInput := 2 })) ≠ none := by decide
  have hlimited := fun o =>
    optionChange_of_limited b {} cameraSession .viewCamera o rfl rfl (by decide)
  exact ⟨⟨hpass, (hlimited o).2.1 hpass⟩, hrefuse, (hlimited _).2.2 hrefuse⟩

end Connection

end RustDesk
