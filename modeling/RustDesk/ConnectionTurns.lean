import RustDesk.ConnectionSteps

/-!
# What one turn of the loop can do

The turns fall into the four ways a login is moved on (a login request, a second-factor
code, a switch of sides, the click in the connection manager) and the rest, which leave
the core alone but for the permissions. Each way is described by the state in which the
small steps of the login begin.
-/

namespace RustDesk.Connection

variable {b : Build} {env : Env} {a : Prop} {k : AuthConnType → Prop}
  {s s' s'' : Connection} {r : Connection × Bool}

/-- `s'` is `s` with the login request `lr` installed; a trusted device settles the
second factor on the way. -/
def Installs (lr : LoginRequest) (s s' : Connection) : Prop :=
  ∃ req, s'.core = { s.core with
      lr := lr
      optionsInLogin := if lr.option.isSome then lr.option else s.optionsInLogin
      require2fa := req } ∧
    ((req = s.require2fa ∧ s'.log = .installLogin lr :: s.log) ∨
      (req = none ∧ s'.log = .trustedDevice :: .installLogin lr :: s.log))

theorem handleLoginRequestWithoutValidation_installs (env : Env) (lr : LoginRequest) :
    Installs lr s (s.handleLoginRequestWithoutValidation env lr) := by
  unfold handleLoginRequestWithoutValidation
  extract_lets s₁
  have h₁ : Installs lr s s₁ := ⟨s.require2fa, rfl, .inl ⟨rfl, rfl⟩⟩
  split
  · split
    · split
      · exact ⟨none, rfl, .inr ⟨rfl, rfl⟩⟩
      · exact h₁
    · exact h₁
  · exact h₁

/-- The login request `lr` in place of an earlier one, with its kind and its permission. -/
def requested (b : Build) (env : Env) (lr : LoginRequest) (s : Connection) : Connection × Bool :=
  (s.handleLoginRequestWithoutValidation env lr).resetSessionScopeForLogin.loginScope b env lr

/-- The permission that a session kind needs. -/
def needed : AuthConnType → Option PermissionOption
  | .remote => none
  | .fileTransfer => some .fileTransfer
  | .portForward => some .tunnel
  | .viewCamera => some .camera
  | .terminal => some .terminal

/-- The kind a login request asks for. -/
def asked (lr : LoginRequest) : AuthConnType :=
  match lr.union with
  | some (.fileTransfer ..) => .fileTransfer
  | some (.portForward _) => .portForward
  | some .viewCamera => .viewCamera
  | some (.terminal _) => .terminal
  | none => .remote

/-- The core of a login request that its permission let through. -/
def permitted (lr : LoginRequest) (addr : String) (c : Core) : Core :=
  { c with
    fileTransfer := match lr.union with
      | some (.fileTransfer dir showHidden) => some (dir, showHidden)
      | _ => none
    viewCamera := lr.union = some .viewCamera
    terminal := asked lr = .terminal
    portForwardAddress := addr
    terminalServiceId := match lr.union with
      | some (.terminal serviceId) => serviceId
      | _ => c.terminalServiceId }

/-- The core after the kind flags were reset. -/
def resetCore (addr : String) (c : Core) : Core :=
  { c with
    fileTransfer := none
    viewCamera := false
    terminal := false
    portForwardAddress := addr }

/-- Refused with the flags reset, or granted with the permission on record. -/
def ScopeOutcome (lr : LoginRequest) (s : Connection) (r : Connection × Bool) : Prop :=
  (r.2 = false ∧ ∃ new addr, r.1.log = new ++ s.log ∧ (∀ e ∈ new, e.isAttempt = true) ∧
      r.1.core = resetCore addr s.core) ∨
    (r.2 = true ∧ ∃ addr, r.1.core = permitted lr addr s.core ∧
      r.1.log = ((needed (asked lr)).map fun opt => Effect.permission opt lr true).toList ++ s.log)

theorem loginScope_outcome {lr : LoginRequest} (hlr : s.lr = lr) :
    ScopeOutcome lr s (s.resetSessionScopeForLogin.loginScope b env lr) := by
  have hrefuse : ∀ opt err, ScopeOutcome lr s
      ((s.resetSessionScopeForLogin.emit (.permission opt s.lr false)).sendLoginError env err, false) :=
    fun opt err => .inl ⟨rfl, [_, .permission opt s.lr false], "", rfl,
      by simp [Effect.isAttempt, Effect.scope], rfl⟩
  unfold loginScope checkPermission
  split
  · rename_i hu
    cases hok : permission b env .fileTransfer s.resetSessionScopeForLogin.controlPermissions with
    | false => exact hrefuse _ _
    | true =>
      refine .inr ⟨rfl, "", ?_, ?_⟩
      · simp only [permitted, asked, hu]
        rfl
      · simp only [asked, hu]
        rw [← hlr]
        rfl
  · rename_i hu
    cases hok : permission b env .camera s.resetSessionScopeForLogin.controlPermissions with
    | false => exact hrefuse _ _
    | true =>
      refine .inr ⟨rfl, "", ?_, ?_⟩
      · simp only [permitted, asked, hu]
        rfl
      · simp only [asked, hu]
        rw [← hlr]
        rfl
  · rename_i serviceId hu
    cases hok : permission b env .terminal s.resetSessionScopeForLogin.controlPermissions with
    | false => exact hrefuse _ _
    | true =>
      dsimp only
      split
      · exact .inl ⟨rfl, [_, .permission .terminal s.lr true], "", rfl,
          by simp [Effect.isAttempt, Effect.scope], rfl⟩
      · refine .inr ⟨rfl, "", ?_, ?_⟩
        · simp only [permitted, asked, hu]
          rfl
        · simp only [asked, hu]
          rw [← hlr]
          rfl
  · rename_i pf hu
    cases hok : permission b env .tunnel s.resetSessionScopeForLogin.controlPermissions with
    | false => exact hrefuse _ _
    | true =>
      refine .inr ⟨rfl, (normalizePortForwardTarget pf).1, ?_, ?_⟩
      · simp only [permitted, asked, hu]
        rfl
      · simp only [asked, hu]
        rw [← hlr]
        rfl
  · rename_i hu
    split
    · exact .inl ⟨rfl, [_], "", rfl, by simp [Effect.isAttempt, Effect.scope], rfl⟩
    · refine .inr ⟨rfl, "", ?_, ?_⟩
      · simp only [permitted, asked, hu]
        rfl
      · simp only [asked, hu]
        rfl

/-- A login request installs itself and, when the permission of its kind is granted,
replaces the kind of an earlier request. -/
theorem requested_cases (env : Env) (lr : LoginRequest) :
    ∃ s₁, Installs lr s s₁ ∧ ScopeOutcome lr s₁ (s.requested b env lr) := by
  obtain ⟨req, hc, hl⟩ := handleLoginRequestWithoutValidation_installs (s := s) env lr
  exact ⟨_, ⟨req, hc, hl⟩, loginScope_outcome (congrArg Core.lr hc)⟩

theorem loginPermitted_run {lr : LoginRequest} (hr : s.loginPermitted b env lr = r) :
    LoginRun b a s r := by
  unfold loginPermitted at hr
  split at hr
  · subst hr
    exact .of_leave (frame_sendLoginError _).leave
  · split at hr
    · subst hr
      exact .of_leave (frame_sendLoginError _).leave
    · exact .frame_trans (frame_onlyIf fun _ => frame_tryStartCmIpc) (loginDesktop_run hr)

/-- A login request is refused by its kind's permission, or goes on from there. -/
theorem onLoginRequest_cases {lr : LoginRequest} (hauth : s.authorized = false)
    (hr : s.onLoginRequest b env lr = r) :
    r = ((s.requested b env lr).1, false) ∨
      ((s.requested b env lr).2 = true ∧ LoginRun b a (s.requested b env lr).1 r) := by
  obtain ⟨req, hc, -⟩ := handleLoginRequestWithoutValidation_installs (s := s) env lr
  have hauth₁ : (s.handleLoginRequestWithoutValidation env lr).authorized = false :=
    (congrArg Core.authorized hc).trans hauth
  unfold onLoginRequest at hr
  extract_lets s₁ at hr
  rw [if_neg (by rw [hauth₁]; simp)] at hr
  have hreq : s.requested b env lr = s₁.resetSessionScopeForLogin.loginScope b env lr := rfl
  rw [hreq]
  generalize s₁.resetSessionScopeForLogin.loginScope b env lr = c at hr
  obtain ⟨s₂, ok⟩ := c
  cases ok with
  | false => exact .inl hr.symm
  | true => exact .inr ⟨rfl, loginPermitted_run hr⟩

/-- Whether a second-factor code is accepted. -/
def accepts2fa (env : Env) (code : String) (s : Connection) : Bool :=
  (env.checkFailure 1 .default).allowed &&
    (s.require2fa.bind fun totp => env.totpCheckCurrent totp code) == some true

theorem checkFailure_allowed {i : Nat} {scope : FailureScope}
    (h : (env.checkFailure i scope).allowed = true) : s.checkFailure env i scope = (s, true) := by
  unfold checkFailure
  rw [if_pos h]

theorem auth2faPassed_run {hwid : Bytes} (hp : s.authorized = false → a ∨ Primary s.log)
    (hr : s.auth2faPassed b env hwid = r) : LoginRun b a s r := by
  unfold auth2faPassed at hr
  generalize hl : s.sendLogonResponseAndKeepAlive b env = c at hr
  have hrun : LoginRun b a s c := sendLogonResponseAndKeepAlive_run hp hl
  obtain ⟨s₁, keep⟩ := c
  cases keep with
  | false =>
    subst hr
    exact hrun
  | true =>
    subst hr
    exact hrun.trans (.of_frame ((frame_tryStartCm _ _ _).trans
      (frame_onlyIf fun _ => frame_quiet rfl rfl)))

/-- A second-factor code changes nothing unless it is accepted; then the login goes on,
whether or not there was a primary authentication. -/
theorem onAuth2fa_cases {code : String} {hwid : Bytes} (hr : s.onAuth2fa b env code hwid = r) :
    (r.2 = true ∧ Frame (fun _ => False) s r.1) ∨
      (s.accepts2fa env code = true ∧ ∃ s₁, s₁.core = { s.core with require2fa := none } ∧
        s₁.log = .updateFailure true 1 .default :: .totp true :: s.log ∧
        ((s.authorized = false → a ∨ Primary s₁.log) → LoginRun b a s₁ r)) := by
  unfold onAuth2fa at hr
  generalize hc : s.checkFailure env 1 .default = c at hr
  have hq : Frame (fun _ => False) s c.1 := hc ▸ frame_checkFailure 1 .default
  obtain ⟨s₀, ok⟩ := c
  cases ok with
  | false =>
    subst hr
    exact .inl ⟨rfl, hq⟩
  | true =>
    have hallow : (env.checkFailure 1 .default).allowed = true := by
      by_contra hno
      unfold checkFailure at hc
      rw [if_neg hno] at hc
      cases hc
    rw [checkFailure_allowed hallow] at hc
    obtain ⟨rfl, -⟩ := Prod.mk.inj hc
    dsimp only at hr
    split at hr
    · subst hr
      exact .inl ⟨rfl, .refl s⟩
    · subst hr
      exact .inl ⟨rfl, (frame_quiet rfl rfl).trans
        ((frame_quiet rfl rfl).trans (frame_sendLoginError _))⟩
    · rename_i htotp
      exact .inr ⟨by simp [accepts2fa, hallow, htotp], s.codeAccepted env, rfl, rfl,
        fun hp => auth2faPassed_run hp hr⟩

/-- A switch of sides installs the login request it carries and, with the right uuid,
goes on to authorization. -/
theorem onSwitchSidesResponse_cases {uuid : Bytes} {lr : Option LoginRequest}
    (hr : s.onSwitchSidesResponse b env uuid lr = r) :
    (r = (s, true) ∧ (b.flutterDesktop = false ∨ lr = none)) ∨
      (∃ lr', b.flutterDesktop = true ∧ lr = some lr' ∧ ∃ s₁, Installs lr' s s₁ ∧
        (r = (s₁, true) ∨ ∃ s₂, s₂.core = { s₁.core with fromSwitch := true } ∧
          s₂.log = .switchSides :: s₁.log ∧ LoginRun b a s₂ r)) := by
  unfold onSwitchSidesResponse at hr
  split at hr
  · rename_i hnone
    subst hr
    refine .inl ⟨rfl, ?_⟩
    split at hnone
    · exact .inr hnone
    · rename_i hb
      exact .inl (by simpa using hb)
  · rename_i lr' hsome
    split at hsome
    · rename_i hb
      refine .inr ⟨lr', hb, hsome, ?_⟩
      extract_lets s₁ uuids uuidOld s₂ s₃ at hr
      have hins : Installs lr' s s₂ :=
        handleLoginRequestWithoutValidation_installs env lr'
      refine ⟨s₂, hins, ?_⟩
      clear_value uuidOld
      split at hr
      · split at hr
        · refine .inr ⟨s₃, rfl, rfl, ?_⟩
          generalize hl : s₃.sendLogonResponseAndKeepAlive b env = c at hr
          have hrun : LoginRun b a s₃ c :=
            sendLogonResponseAndKeepAlive_run
              (fun _ => .inr ⟨.switchSides, by simp [s₃, emit], rfl⟩) hl
          obtain ⟨s₄, keep⟩ := c
          cases keep with
          | false =>
            subst hr
            exact hrun
          | true =>
            subst hr
            exact hrun.trans (.of_frame ((frame_tryStartCm _ _ _).trans frame_tryStartCmIpc))
        · exact .inl hr.symm
      · exact .inl hr.symm
    · cases hsome

/-- The click goes on to authorization; a port forward leaves the loop at once. -/
theorem onAuthorize_cases (hr : s.onAuthorize b env = r) :
    ∃ s₁ keep, s₁.core = { s.core with require2fa := none } ∧ s₁.log = .cmAuthorize :: s.log ∧
      LoginRun b a s₁ (r.1, keep) ∧ (r.2 = true → keep = true) := by
  unfold onAuthorize at hr
  extract_lets s₁ at hr
  generalize hl : s₁.sendLogonResponseAndKeepAlive b env = c at hr
  have hrun : LoginRun b a s₁ c :=
    sendLogonResponseAndKeepAlive_run (fun _ => .inr ⟨.cmAuthorize, by simp [s₁, emit], rfl⟩) hl
  obtain ⟨s₂, keep⟩ := c
  cases keep with
  | false =>
    subst hr
    exact ⟨s₁, false, rfl, rfl, hrun, fun h => h⟩
  | true =>
    subst hr
    exact ⟨s₁, true, rfl, rfl, hrun, fun _ => rfl⟩

/-! ### The other turns -/

theorem Outcome.stop {s₁ : Connection} (h : Outcome k s (s₁, true)) : Outcome k s (s₁, false) :=
  Frame.leave h

theorem onMessage_cases {m : Message} (hr : s.onMessage b env m = r)
    (hk : s.authorized = true → s.authorizedScopeViolation b m = none → Scoped b k m s) :
    Outcome k s r ∨
      (∃ lr, m = .loginRequest lr ∧ s.authorized = false ∧ s.onLoginRequest b env lr = r) ∨
      (∃ code hwid, m = .auth2fa code hwid ∧ s.onAuth2fa b env code hwid = r) ∨
      (∃ uuid lr, m = .switchSidesResponse uuid lr ∧
        (s.authorized = true → s.authorizedScopeViolation b m = none) ∧
        s.onSwitchSidesResponse b env uuid lr = r) := by
  unfold onMessage at hr
  split at hr
  · subst hr
    exact .inl ((leave_onClose true).trans frame_checkRemoveSession.leave)
  · split at hr
    · subst hr
      exact .inl (Frame.refl s)
    · rename_i hnl
      split at hr
      · subst hr
        exact .inl (outcome_handleAuthorizedScopeViolation _)
      · rename_i hpass
        have hscope : s.authorized = true → s.authorizedScopeViolation b m = none := by
          intro hauth
          rwa [if_pos hauth] at hpass
        unfold dispatch at hr
        split at hr
        · refine .inr (.inl ⟨_, rfl, ?_, hr⟩)
          simpa [isLoginRequest] using hnl
        · exact .inr (.inr (.inl ⟨_, _, rfl, hr⟩))
        · subst hr
          exact .inl (frame_onTestDelay _)
        · exact .inr (.inr (.inr ⟨_, _, rfl, hscope, hr⟩))
        · split at hr
          · rename_i hsess
            subst hr
            have hauth := (Bool.and_eq_true_iff.mp hsess).1
            exact .inl (outcome_onSessionMessage m (hk hauth (hscope hauth)))
          · subst hr
            exact .inl (Frame.refl s)

/-- `s'` has the core of `s` but for the permissions. -/
def Switches (k : AuthConnType → Prop) (s s' : Connection) : Prop :=
  ∃ p, Frame k { s with perms := p } s'

theorem Switches.of_frame (h : Frame k s s') : Switches k s s' := ⟨s.perms, h⟩

/-- The permissions whose switches subscribe. -/
def subscribing : List String := ["keyboard", "clipboard", "audio", "file"]

/-- What a permission switch does, by the permission: most set their flag and tell the peer. -/
theorem switchPermission_elim {P : Connection → Prop} {name : String} {enabled : Bool}
    (keyboard : name = "keyboard" →
      let s₁ := (s.setKeyboard enabled).send (.permissionInfo .keyboard enabled)
      P (s₁.subscribeKeyboard b env (enabled || s₁.opts.showRemoteCursor)))
    (clipboard : name = "clipboard" →
      let s₁ := (s.setClipboard enabled).send (.permissionInfo .clipboard enabled)
      P (s₁.subscribe env .clipboard (s₁.canSubClipboardService env)))
    (audio : name = "audio" →
      let s₁ := (s.setAudio enabled).send (.permissionInfo .audio enabled)
      P (s₁.onlyIf s₁.authorized (subscribeAudio env)))
    (file : name = "file" →
      let s₁ := (s.setFile enabled).send (.permissionInfo .fileTransfer enabled)
      P (s₁.onlyIf b.unixFileCopyPaste
        (subscribe env .fileClipboard (s₁.canSubFileClipboardService env))))
    (flag : name ∉ subscribing → ∀ (p : Permissions) (kind : PermissionOption),
      P (({ s with perms := p } : Connection).send (.permissionInfo kind enabled)))
    (privacyMode : name ∉ subscribing → P (s.switchPrivacyMode env enabled))
    (same : name ∉ subscribing → P s) : P (s.switchPermission b env name enabled) := by
  unfold switchPermission
  by_cases hkey : name = "keyboard"
  · rw [if_pos hkey]
    exact keyboard hkey
  by_cases hclip : name = "clipboard"
  · rw [if_neg hkey, if_pos hclip]
    exact clipboard hclip
  by_cases haudio : name = "audio"
  · rw [if_neg hkey, if_neg hclip, if_pos haudio]
    exact audio haudio
  by_cases hfile : name = "file"
  · rw [if_neg hkey, if_neg hclip, if_neg haudio, if_pos hfile]
    exact file hfile
  have hother : name ∉ subscribing := by simp [subscribing, hkey, hclip, haudio, hfile]
  rw [if_neg hkey, if_neg hclip, if_neg haudio, if_neg hfile]
  split_ifs
  · exact flag hother _ _
  · exact flag hother _ _
  · exact flag hother _ _
  · exact privacyMode hother
  · exact same hother

theorem switches_switchPermission (name : String) (enabled : Bool) :
    Switches k s (s.switchPermission b env name enabled) := by
  apply switchPermission_elim
  · intro _
    exact ⟨_, (frame_send (s := s.setKeyboard enabled) _).trans (frame_subscribeKeyboard _)⟩
  · intro _
    exact ⟨_, (frame_send (s := s.setClipboard enabled) _).trans (frame_subscribe _ _)⟩
  · intro _
    exact ⟨_, (frame_send (s := s.setAudio enabled) _).trans
      (frame_onlyIf fun _ => frame_subscribeAudio)⟩
  · intro _
    exact ⟨_, (frame_send (s := s.setFile enabled) _).trans
      (frame_onlyIf fun _ => frame_subscribe _ _)⟩
  · intro _ p kind
    exact ⟨p, frame_send _⟩
  · intro _
    unfold switchPrivacyMode
    split_ifs
    · have hq : Frame k (s.setPrivacyMode enabled)
          (((s.emit (.turnOffPrivacy env.curImplKey)).send
            (.privacyMode "PrvOffByPeer" env.curImplKey)).setPrivacyMode enabled) :=
        .of_log [_, .turnOffPrivacy env.curImplKey] rfl rfl (by simp [Effect.isLogin, Effect.scope])
      exact ⟨_, hq.trans (frame_send _)⟩
    · exact .of_frame ((frame_send _).trans (frame_sendToCm _))
    · exact ⟨_, frame_send (s := s.setPrivacyMode enabled) _⟩
  · intro _
    exact .of_frame (.refl s)

theorem switches_onCmData (env : Env) (d : FromCm) : Switches k s (s.onCmData b env d) := by
  unfold onCmData
  split
  case h_1 =>
    exact .of_frame (.of_log [.send (.chatMessage _)] rfl rfl
      (by simp [Effect.isLogin, Effect.scope]))
  case h_2 => exact switches_switchPermission _ _
  case h_3 => exact .of_frame (frame_send _)
  case h_4 => split <;> first | exact .of_frame (frame_send _) | exact .of_frame (.refl s)
  case h_5 => exact .of_frame (frame_send _)
  case h_6 => split <;> first | exact .of_frame (frame_quiet rfl rfl) | exact .of_frame (.refl s)
  case h_7 => split <;> first | exact .of_frame (frame_send _) | exact .of_frame (.refl s)
  case h_8 => exact .of_frame (frame_handleVoiceCall _)
  case h_9 => exact .of_frame (frame_closeVoiceCall.trans (frame_send _))
  case h_10 =>
    split <;> first | exact .of_frame (frame_handleReadJobInitResult _ _) | exact .of_frame (.refl s)
  case h_11 => split <;> first | exact .of_frame (frame_forwardFromCm _ _) | exact .of_frame (.refl s)
  case h_12 =>
    split <;> first | exact .of_frame (frame_finishCmReadJob _ _) | exact .of_frame (.refl s)
  case h_13 =>
    split <;> first | exact .of_frame (frame_finishCmReadJob _ _) | exact .of_frame (.refl s)
  case h_14 => split <;> first | exact .of_frame (frame_forwardFromCm _ _) | exact .of_frame (.refl s)
  case h_15 =>
    split <;> first | exact .of_frame (frame_handleAllFilesResult _ _ _) | exact .of_frame (.refl s)
  case h_16 => exact .of_frame (.refl s)

/-- The turns of the loop. A turn that leaves the loop for a port forward may leave it
although the handler itself did not give the connection up. -/
inductive Turn (b : Build) (env : Env) (k : AuthConnType → Prop) (s : Connection) :
    Event → Connection × Bool → Prop
  | quiet {ev : Event} {r : Connection × Bool} (p : Permissions) :
      (∀ m, ev = .message m → p = s.perms) → Outcome k { s with perms := p } r →
      Turn b env k s ev r
  | request {lr : LoginRequest} {s' : Connection} {keep keep' : Bool} :
      s.authorized = false → s.onLoginRequest b env lr = (s', keep') →
      (keep = true → keep' = true) → Turn b env k s (.message (.loginRequest lr)) (s', keep)
  | code {code : String} {hwid : Bytes} {s' : Connection} {keep keep' : Bool} :
      s.onAuth2fa b env code hwid = (s', keep') → (keep = true → keep' = true) →
      Turn b env k s (.message (.auth2fa code hwid)) (s', keep)
  | switch {uuid : Bytes} {lr : Option LoginRequest} {s' : Connection} {keep keep' : Bool} :
      (s.authorized = true →
        s.authorizedScopeViolation b (.switchSidesResponse uuid lr) = none) →
      s.onSwitchSidesResponse b env uuid lr = (s', keep') → (keep = true → keep' = true) →
      Turn b env k s (.message (.switchSidesResponse uuid lr)) (s', keep)
  | click {r : Connection × Bool} : s.onAuthorize b env = r → Turn b env k s (.cm .authorize) r

theorem onEvent_turn {ev : Event} (hr : s.onEvent b env ev = r)
    (hk : ∀ m, ev = .message m → s.authorized = true → s.authorizedScopeViolation b m = none →
      Scoped b k m s) : Turn b env k s ev r := by
  have hframe : ∀ {ev s'}, Frame k s s' → Turn b env k s ev (s', true) :=
    fun h => .quiet s.perms (fun _ _ => rfl) h
  have hleave : ∀ {ev s'}, Leave k s s' → Turn b env k s ev (s', false) :=
    fun h => .quiet s.perms (fun _ _ => rfl) h
  unfold onEvent at hr
  split at hr
  case h_1 m =>
    unfold onPeerMessage at hr
    generalize hm : s.onMessage b env m = c at hr
    obtain ⟨s', keep'⟩ := c
    have hkeep : ∃ keep, r = (s', keep) ∧ (keep = true → keep' = true) := by
      cases keep' with
      | false => exact ⟨false, hr.symm, fun h => h⟩
      | true => exact ⟨_, hr.symm, fun _ => rfl⟩
    obtain ⟨keep, rfl, hle⟩ := hkeep
    rcases onMessage_cases hm (hk m rfl) with hq | ⟨lr, rfl, hauth, h⟩ | ⟨code, hwid, rfl, h⟩ |
      ⟨uuid, lr, rfl, hpass, h⟩
    · refine .quiet s.perms (fun _ _ => rfl) ?_
      cases keep with
      | true =>
        cases hle rfl
        exact hq
      | false =>
        cases keep' with
        | true => exact hq.stop
        | false => exact hq
    · exact .request hauth h hle
    · exact .code h hle
    · exact .switch hpass h hle
  case h_2 =>
    subst hr
    exact hframe (.refl s)
  case h_3 =>
    subst hr
    exact hleave (leave_onClose true)
  case h_4 =>
    subst hr
    exact hleave (leave_onClose true)
  case h_5 d =>
    unfold onCm at hr
    split at hr
    · exact .click hr
    · subst hr
      refine hleave (.trans (Frame.leave ?_) (leave_onClose true))
      have hq : Frame k s { s with chatUnanswered := false, fileTransferred := false } :=
        .of_eq rfl rfl
      exact hq.trans (frame_sendCloseReasonNoRetry _)
    · split at hr <;> subst hr
      · exact hframe (.refl s)
      · exact hleave (leave_onClose false)
    · subst hr
      obtain ⟨p, hp⟩ := switches_onCmData (b := b) (k := k) (s := s) env d
      exact .quiet p (fun m hm => by cases hm) hp
  case h_6 =>
    subst hr
    exact .quiet s.perms (fun _ _ => rfl) (outcome_onReadJobs _ _)
  case h_7 =>
    subst hr
    exact hleave ((frame_sendCloseReasonNoRetry _).leave.trans (leave_onClose true))
  case h_8 =>
    subst hr
    exact .quiet s.perms (fun _ _ => rfl) (outcome_onService _ _)
  case h_9 =>
    subst hr
    exact hframe frame_onPrinterData
  case h_10 =>
    subst hr
    exact hleave ((frame_sendCloseReasonNoRetry _).leave.trans (leave_onClose true))
  case h_11 =>
    split at hr <;> subst hr
    · exact hleave (leave_onClose true)
    · exact hframe frame_onTestDelayTimer
  case h_12 =>
    subst hr
    exact hframe (frame_onFileClip _)
  case h_13 =>
    subst hr
    exact hframe (.of_eq rfl rfl)

end RustDesk.Connection
