import RustDesk.ConnectionFrame

/-!
# The small steps of a login

A login that was installed goes on to authorization by small steps: quiet ones, the
entry of a successful check, the acquisition of the terminal token, and the
authorization itself with the connection to a port-forward target. `LoginStep` says
what each of them can do and under which guard, and the handlers are runs of them, so
that an invariant is checked against five cases and not against every branch of the
handlers.
-/

namespace RustDesk

/-- The four outcomes that count as a primary authentication. -/
def Effect.isPrimary : Effect → Bool
  | .validatePassword ok => ok
  | .recentSession tfa => !tfa
  | .cmAuthorize => true
  | .switchSides => true
  | _ => false

/-- A primary authentication succeeded. -/
def Primary (log : List Effect) : Prop := ∃ e ∈ log, e.isPrimary = true

theorem Primary.suffix {log log' : List Effect} (h : Primary log) (hs : log <:+ log') :
    Primary log' := by
  obtain ⟨e, he, hp⟩ := h
  exact ⟨e, hs.mem he, hp⟩

/-- An entry that a login which is given up may leave: no authorization, no connection
to a target, no capability. -/
def Effect.isAttempt : Effect → Bool
  | .authorize .. => false
  | .tcpConnect .. => false
  | e => e.scope.isNone

namespace Connection

/-- One small step of a login. The authorization is reached after a primary
authentication, or under `a`. -/
inductive LoginStep (b : Build) (a : Prop) : Connection → Connection × Bool → Prop
  | quiet {s r} : Outcome (fun _ => False) s r → LoginStep b a s r
  | attempt {s s'} (new : List Effect) (tok : Option TerminalUserToken) :
      s'.log = new ++ s.log → (∀ e ∈ new, e.isAttempt = true) →
      s'.core = { s.core with terminalUserToken := tok } → LoginStep b a s (s', false)
  | entry {s s'} (e : Effect) : (e = .validatePassword true ∨ ∃ tfa, e = .recentSession tfa) →
      s'.core = s.core → s'.log = e :: s.log → LoginStep b a s (s', true)
  | token {s s'} (t : TerminalUserToken) (mid : List Effect) : s.terminal = true →
      s.terminalUserToken = none → s'.core = { s.core with terminalUserToken := some t } →
      s'.log = .serviceUserCheck s.terminalServiceId true :: mid ++
        .fillTerminalUserToken (trim s.lr.osLogin.username) s.lr.osLogin.password none :: s.log →
      (∀ e ∈ mid, e.Within fun _ => False) → LoginStep b a s (s', true)
  | authorize {s} (env : Env) : s.authorized = false → (a ∨ Primary s.log) →
      (s.require2fa = none ∨ .recentSession true ∈ s.log ∨ s.fromSwitch = true) →
      (b.mobile = true ∨ s.terminal = false ∨ s.terminalUserToken.isSome = true) →
      LoginStep b a s (s.connectAndAuthorize b env)

/-- A run of small steps, which stops at the first one that gives the connection up. -/
inductive LoginRun (b : Build) (a : Prop) : Connection → Connection × Bool → Prop
  | nil (s) : LoginRun b a s (s, true)
  | cons {s s' r} : LoginStep b a s (s', true) → LoginRun b a s' r → LoginRun b a s r
  | last {s s'} : LoginStep b a s (s', false) → LoginRun b a s (s', false)

variable {b : Build} {env : Env} {a : Prop} {s s' s'' : Connection} {r : Connection × Bool}

theorem LoginRun.keeps {J : Connection → Bool → Prop}
    (hstep : ∀ s r, J s true → LoginStep b a s r → J r.1 r.2) (hr : LoginRun b a s r)
    (hs : J s true) : J r.1 r.2 := by
  induction hr with
  | nil s => exact hs
  | cons h _ ih => exact ih (hstep _ _ hs h)
  | last h => exact hstep _ _ hs h

theorem LoginRun.single (h : LoginStep b a s r) : LoginRun b a s r := by
  obtain ⟨s', keep⟩ := r
  cases keep with
  | true => exact .cons h (.nil s')
  | false => exact .last h

theorem LoginRun.trans (h : LoginRun b a s (s', true)) (h' : LoginRun b a s' r) :
    LoginRun b a s r := by
  generalize hx : (s', true) = x at h
  induction h with
  | nil s => cases hx; exact h'
  | cons h _ ih => exact .cons h (ih hx)
  | last h => cases hx

theorem LoginRun.of_frame (h : Frame (fun _ => False) s s') : LoginRun b a s (s', true) :=
  .single (.quiet h)

theorem LoginRun.of_leave (h : Leave (fun _ => False) s s') : LoginRun b a s (s', false) :=
  .single (.quiet h)

theorem LoginRun.frame_trans (h : Frame (fun _ => False) s s') (h' : LoginRun b a s' r) :
    LoginRun b a s r :=
  (LoginRun.of_frame h).trans h'

/-! ### Quiet parts -/

theorem frame_sendLoginError {k : AuthConnType → Prop} (err : String) :
    Frame k s (s.sendLoginError env err) :=
  frame_send _

theorem frame_checkFailure {k : AuthConnType → Prop} (i : Nat) (scope : FailureScope) :
    Frame k s (s.checkFailure env i scope).1 := by
  unfold checkFailure
  extract_lets decision
  split
  · exact .refl s
  · dsimp only
    split
    · exact frame_sendLoginError _
    · exact .refl s

theorem frame_tryStartCmIpc {k : AuthConnType → Prop} : Frame k s s.tryStartCmIpc := by
  unfold tryStartCmIpc
  split
  · exact .of_log [.startCmIpc] rfl rfl (by simp [Effect.isLogin, Effect.scope])
  · exact .refl s

theorem frame_tryStartCm {k : AuthConnType → Prop} (peerId name : String) (authorized : Bool) :
    Frame k s (s.tryStartCm peerId name authorized) :=
  frame_sendToCm _

/-! ### The checks -/

theorem isRecentSession_spec {tfa : Bool} (hr : s.isRecentSession env tfa = r) :
    r.1.core = s.core ∧ r.1.log = if r.2 then .recentSession tfa :: s.log else s.log := by
  unfold isRecentSession at hr
  extract_lets s₁ s₂ at hr
  split at hr
  · split at hr
    · subst hr
      cases tfa <;> exact ⟨rfl, rfl⟩
    · subst hr
      exact ⟨rfl, rfl⟩
  · subst hr
    exact ⟨rfl, rfl⟩

theorem isRecentSession_run {tfa : Bool} (hr : s.isRecentSession env tfa = r) :
    LoginRun b a s (r.1, true) := by
  obtain ⟨hc, hl⟩ := isRecentSession_spec hr
  split at hl
  · exact .single (.entry _ (.inr ⟨tfa, rfl⟩) hc hl)
  · exact .of_frame (.of_eq hc hl)

theorem validatePassword_run (env : Env) (allow : Bool) :
    LoginRun b a s ((s.validatePassword env allow).1, true) ∧
      ((s.validatePassword env allow).2 = true → Primary (s.validatePassword env allow).1.log) := by
  have hprim : ∀ l : List Effect, Primary (.validatePassword true :: l) :=
    fun l => ⟨.validatePassword true, by simp, rfl⟩
  unfold validatePassword
  split
  · have hq : Frame (fun _ => False) s ({ s with
        connAuditPrimaryAuth := .temporaryPassword }.updateOrInsertSession env
          env.temporaryPassword false |>.emit (.temporaryPassword true)) :=
      .of_log [.temporaryPassword true] rfl rfl (by simp [Effect.isLogin, Effect.scope])
    exact ⟨.frame_trans hq (.single (.entry (.validatePassword true) (.inl rfl) rfl rfl)),
      fun _ => hprim _⟩
  · split
    · exact ⟨.single (.entry (.validatePassword true) (.inl rfl) rfl rfl), fun _ => hprim _⟩
    · refine ⟨.of_frame (frame_quiet rfl rfl), fun h => by cases h⟩

theorem handleAdministratorCheck_cases {username password : String}
    {r : Connection × Option String} (hr : s.handleAdministratorCheck env username password = r) :
    (r.2 = none ∧ ∃ t, r.1 = { s with terminalUserToken := some t }) ∨
      (r.2.isSome = true ∧ r.1 = s) := by
  unfold handleAdministratorCheck at hr
  split at hr <;> subst hr
  · exact .inl ⟨rfl, _, rfl⟩
  · exact .inr ⟨rfl, rfl⟩

theorem handleInstalledUser_cases {r : Connection × Option String}
    (hr : s.handleInstalledUser env = r) :
    (r.2 = none ∧ ∃ t, r.1 = { s with terminalUserToken := some t }) ∨
      (r.2.isSome = true ∧ r.1 = s) := by
  unfold handleInstalledUser at hr
  split at hr
  · subst hr
    exact .inr ⟨rfl, rfl⟩
  · split at hr <;> subst hr
    · exact .inl ⟨rfl, _, rfl⟩
    · exact .inr ⟨rfl, rfl⟩

/-- The token is set exactly when no error is reported, and the attempt is recorded. -/
theorem fillTerminalUserToken_cases {username password : String} {r : Connection × Option String}
    (hr : s.fillTerminalUserToken b env username password = r) :
    (r.2 = none ∧ ∃ t, r.1 = { s with
        terminalUserToken := some t
        log := .fillTerminalUserToken username password none :: s.log }) ∨
      (∃ msg t, r.2 = some msg ∧ r.1 = { s with
        terminalUserToken := t
        log := .fillTerminalUserToken username password (some msg) :: s.log }) := by
  unfold fillTerminalUserToken at hr
  extract_lets r₁ at hr
  have h₁ : (r₁.2 = none ∧ ∃ t, r₁.1 = { s with terminalUserToken := some t }) ∨
      (∃ msg t, r₁.2 = some msg ∧ r₁.1 = { s with terminalUserToken := t }) := by
    unfold r₁
    split_ifs
    · exact .inl ⟨rfl, _, rfl⟩
    · rcases handleAdministratorCheck_cases (rfl : s.handleAdministratorCheck env _ _ = _) with h | ⟨he, hs⟩
      · exact .inl h
      · obtain ⟨msg, hm⟩ := Option.isSome_iff_exists.mp he
        exact .inr ⟨msg, s.terminalUserToken, hm, hs⟩
    · exact .inr ⟨_, none, rfl, rfl⟩
    · rcases handleInstalledUser_cases (rfl : s.handleInstalledUser env = _) with h | ⟨he, hs⟩
      · exact .inl h
      · obtain ⟨msg, hm⟩ := Option.isSome_iff_exists.mp he
        exact .inr ⟨msg, s.terminalUserToken, hm, hs⟩
    · exact .inl ⟨rfl, _, rfl⟩
  subst hr
  rcases h₁ with ⟨he, t, hs⟩ | ⟨msg, t, he, hs⟩
  · refine .inl ⟨he, t, ?_⟩
    rw [he, hs]
    rfl
  · refine .inr ⟨msg, t, he, ?_⟩
    rw [he, hs]
    rfl

theorem prepareTerminalToken_run {osLogin : Bool} (ht : s.terminal = true)
    (hn : s.terminalUserToken = none) {r : Connection × Option Bool}
    (hr : s.prepareTerminalToken b env (trim s.lr.osLogin.username) osLogin = r) :
    (r.2 = none ∧ LoginRun b a s (r.1, true) ∧ ∃ t, r.1.core = { s.core with
        terminalUserToken := some t }) ∨
      (r.2 = some false ∧ LoginRun b a s (r.1, false)) := by
  unfold prepareTerminalToken at hr
  generalize hf : s.fillTerminalUserToken b env _ s.lr.osLogin.password = f at hr
  obtain ⟨s₁, err⟩ := f
  rcases fillTerminalUserToken_cases hf with ⟨rfl, t, rfl⟩ | ⟨msg, t, rfl, rfl⟩
  · dsimp only [checkTerminalServiceUser] at hr
    split at hr <;> subst hr
    · refine .inl ⟨rfl, ?_, t, ?_⟩
      · cases osLogin with
        | false => exact .single (.token t [] ht hn rfl rfl (by simp))
        | true =>
          exact .cons (.token t [.updateFailure true 0 .terminalOsLogin] ht hn rfl rfl
            (by simp [Effect.Within, Effect.isLogin, Effect.scope])) (.of_frame frame_tryStartCmIpc)
      · cases osLogin with
        | false => rfl
        | true => exact frame_tryStartCmIpc (k := fun _ => False).1
    · refine .inr ⟨rfl, .last ?_⟩
      cases osLogin with
      | false =>
        exact .attempt [_, _, .fillTerminalUserToken _ _ none] (some t) rfl
          (by simp [Effect.isAttempt, Effect.scope]) rfl
      | true =>
        exact .attempt [_, _, _, .fillTerminalUserToken _ _ none] (some t) rfl
          (by simp [Effect.isAttempt, Effect.scope]) rfl
  · dsimp only at hr
    subst hr
    refine .inr ⟨rfl, .last ?_⟩
    cases osLogin with
    | false =>
      exact .attempt [_, .fillTerminalUserToken _ _ (some msg)] t rfl
        (by simp [Effect.isAttempt, Effect.scope]) rfl
    | true =>
      exact .attempt [_, _, .fillTerminalUserToken _ _ (some msg)] t rfl
        (by simp [Effect.isAttempt, Effect.scope]) rfl

/-- The terminal login settles the token, or gives the connection up. -/
theorem prepareTerminalLogin_run {r : Connection × Option Bool}
    (hr : s.prepareTerminalLoginForAuthorization b env = r) :
    (r.2 = none ∧ LoginRun b a s (r.1, true) ∧ ∃ tok, r.1.core = { s.core with
        terminalUserToken := tok } ∧ (b.mobile = true ∨ s.terminal = false ∨ tok.isSome = true)) ∨
      (r.2 = some false ∧ LoginRun b a s (r.1, false)) := by
  unfold prepareTerminalLoginForAuthorization at hr
  split at hr
  · rename_i hskip
    subst hr
    refine .inl ⟨rfl, .nil s, s.terminalUserToken, rfl, ?_⟩
    simpa [or_assoc] using hskip
  · rename_i hskip
    simp only [Bool.or_eq_true, Bool.not_eq_true', not_or, Bool.not_eq_false,
      Bool.not_eq_true, Option.isSome_eq_false_iff, Option.isNone_iff_eq_none] at hskip
    obtain ⟨⟨hm, ht⟩, hn⟩ := hskip
    dsimp only at hr
    generalize hc : (if shouldUseTerminalOsLoginScope b s.terminal _ = true then
      s.checkFailure env 0 .terminalOsLogin else (s, true)) = c at hr
    have hq : Frame (fun _ => False) s c.1 := by
      rw [← hc]
      split
      · exact frame_checkFailure _ _
      · exact .refl s
    obtain ⟨s₁, ok⟩ := c
    cases ok with
    | false =>
      subst hr
      exact .inr ⟨rfl, .of_leave hq.leave⟩
    | true =>
      dsimp only at hr
      split at hr
      · subst hr
        exact .inr ⟨rfl, .of_leave (hq.trans (frame_sendLoginError _)).leave⟩
      · have hlr : s₁.lr = s.lr := congrArg Core.lr hq.1
        have ht₁ : s₁.terminal = true := (congrArg Core.terminal hq.1).trans ht
        have hn₁ : s₁.terminalUserToken = none := (congrArg Core.terminalUserToken hq.1).trans hn
        rw [← hlr] at hr
        rcases prepareTerminalToken_run (a := a) ht₁ hn₁ hr with ⟨h0, hrun, t, ht⟩ | ⟨h0, hrun⟩
        · refine .inl ⟨h0, .frame_trans hq hrun, some t, ?_, by simp⟩
          rw [ht, hq.1]
        · exact .inr ⟨h0, .frame_trans hq hrun⟩

/-! ### Authorization -/

/-- What opening the session changes besides the log: the permissions, the service id of
a terminal and the options of the login, which are used up. -/
def Settles (k : AuthConnType → Prop) (s s' : Connection) : Prop :=
  (∃ p t o, s'.core = { s.core with perms := p, terminalServiceId := t, optionsInLogin := o }) ∧
    Grows k s s'

variable {k : AuthConnType → Prop}

theorem Frame.settles (h : Frame k s s') : Settles k s s' :=
  ⟨⟨_, _, _, h.1⟩, h.2⟩

theorem Settles.trans (h : Settles k s s') (h' : Settles k s' s'') : Settles k s s'' := by
  obtain ⟨⟨p, t, o, hc⟩, hg⟩ := h
  obtain ⟨⟨p', t', o', hc'⟩, hg'⟩ := h'
  exact ⟨⟨p', t', o', by rw [hc', hc]⟩, hg.trans hg'⟩

/-- The options of a login that a session of kind `kd` applies switch the persistence of
a terminal only for a terminal or a remote session. -/
theorem setsTerminalPersistent_scopedLoginOption {kd : AuthConnType} {o kept : OptionMessage}
    (h : (scopedLoginOption kd o).1 = some kept) (hset : setsTerminalPersistent b kept = true) :
    kd = .terminal ∨ (kd = .remote ∧ kept = o) := by
  cases kd with
  | remote => exact .inr ⟨rfl, (Option.some.inj h).symm⟩
  | fileTransfer => cases h
  | portForward => cases h
  | viewCamera =>
    rw [setsTerminalPersistent_scopedViewCamera h] at hset
    cases hset
  | terminal => exact .inl rfl

/-- What the kinds in `k` must include for the login options to be applied within them. -/
def LoginScoped (b : Build) (k : AuthConnType → Prop) (s : Connection) : Prop :=
  (s.authedConnId = some .terminal → k .terminal) ∧
    (s.authedConnId = some .remote → ∀ o, s.optionsInLogin = some o →
      setsTerminalPersistent b o = true → k .terminal)

theorem settles_updateScopedLoginOptions (h : LoginScoped b k s) :
    Settles k s (s.updateScopedLoginOptions b env) := by
  unfold updateScopedLoginOptions
  split
  · exact (Frame.refl s).settles
  · rename_i o ho
    have h₀ : Settles k s { s with optionsInLogin := none } :=
      ⟨⟨s.perms, s.terminalServiceId, none, rfl⟩, .refl s⟩
    dsimp only
    split
    · exact h₀
    · rename_i kd hkd
      split
      · rename_i kept hkept
        refine h₀.trans (frame_updateOptions kept fun hset => ?_).settles
        rcases setsTerminalPersistent_scopedLoginOption hkept hset with rfl | ⟨rfl, rfl⟩
        · exact h.1 hkd
        · exact h.2 hkd kept ho hset
      · exact h₀

theorem settles_setKeyboard (enabled : Bool) : Settles k s (s.setKeyboard enabled) :=
  ⟨⟨_, _, _, rfl⟩, [], rfl, by simp⟩

theorem settles_initTerminalService : Settles k s (s.initTerminalService env) := by
  unfold initTerminalService
  split
  · exact (Frame.refl s).settles
  · rename_i token htok
    extract_lets s₁
    have h₁ : Settles k s s₁ := by
      unfold s₁
      split
      · exact ⟨⟨s.perms, env.generateServiceId, s.optionsInLogin, rfl⟩, .refl s⟩
      · exact (Frame.refl s).settles
    refine h₁.trans (Frame.settles ?_)
    exact .of_log [.terminalService s₁.terminalServiceId s₁.terminalPersistent
      token.toTerminalServiceToken] rfl rfl (by simp [Effect.isLogin, Effect.scope])

theorem settles_openSession (subService wait : Bool) :
    Settles k s (s.openSession b env subService wait) := by
  unfold openSession
  split
  · extract_lets s₁ d
    have h₁ : Settles k s s₁ := settles_setKeyboard false
    split
    · exact h₁.trans (frame_sendFs _).settles
    · refine h₁.trans (Frame.settles ?_)
      exact .of_eq rfl rfl
  · split
    · extract_lets s₁
      have h₁ : Settles k s s₁ := settles_setKeyboard false
      split
      · exact h₁
      · exact h₁.trans settles_initTerminalService
    · split
      · extract_lets s₁
        have h₁ : Settles k s s₁ := by
          unfold s₁
          split
          · exact frame_trySubCameraDisplays.settles
          · exact (Frame.refl s).settles
        exact h₁.trans ((settles_setKeyboard false).trans (frame_send _).settles)
      · split
        · exact frame_trySubMonitorServices.settles
        · exact (Frame.refl s).settles

theorem loginScoped_of_core_eq (h : s'.core = s.core) (hs : LoginScoped b k s) :
    LoginScoped b k s' := by
  have hk : s'.authedConnId = s.authedConnId := congrArg Core.authedConnId h
  have ho : s'.optionsInLogin = s.optionsInLogin := congrArg Core.optionsInLogin h
  unfold LoginScoped
  rw [hk, ho]
  exact hs

theorem settles_respond (hs : LoginScoped b k s) (hf : Frame k s s') (subService wait : Bool) :
    Settles k s ((s'.updateScopedLoginOptions b env).openSession b env subService wait) :=
  hf.settles.trans ((settles_updateScopedLoginOptions (loginScoped_of_core_eq hf.1 hs)).trans
    (settles_openSession subService wait))

theorem settles_sendLogonResponse (hs : LoginScoped b k s) :
    Settles k s (s.sendLogonResponse b env) := by
  have hcodec : ∀ m, Frame k s (s.updateCodecOnLogin.send m) :=
    fun m => (frame_quiet rfl rfl).trans (frame_send m)
  unfold sendLogonResponse
  split
  · exact (frame_send _).settles
  · extract_lets wait
    split
    · exact settles_respond hs (frame_send _) false wait
    · split
      · exact settles_respond hs (hcodec _) false wait
      · split
        · exact settles_respond hs (hcodec _) false wait
        · exact settles_respond hs (hcodec _) true wait

/-- Authorizing records the kind and the login request in force, and opens the session. -/
theorem settles_authorize (env : Env)
    (hs : LoginScoped b k s.setAuthorized) : Settles k s.setAuthorized (s.authorize b env) := by
  have hn : Frame k s.setAuthorized s.setAuthorized.normalizeConnAuditAuthFields := by
    unfold normalizeConnAuditAuthFields
    split
    · exact .of_eq rfl rfl
    · exact .refl _
  unfold authorize
  extract_lets s₁
  split
  · exact (hn.trans (frame_send _)).settles
  · exact hn.settles.trans (settles_sendLogonResponse (loginScoped_of_core_eq hn.1 hs))

/-- The state after the connection to a target was tried. -/
def tried (pf : PortForward) (s : Connection) : Connection :=
  { s with portForwardAddress := (normalizePortForwardTarget pf).1 }.emit
    (.tcpConnect (normalizePortForwardTarget pf).1 s.lr)

/-- The state after the connection to a target was made. -/
def connected (pf : PortForward) (s : Connection) : Connection :=
  { s.tried pf with portForwardSocket := some (normalizePortForwardTarget pf).1 }

theorem authorized_connected (pf : PortForward) : (s.connected pf).authorized = s.authorized := by
  simp only [connected, tried, emit]

theorem authedConnId_connected (pf : PortForward) :
    (s.connected pf).authedConnId = s.authedConnId := by
  simp only [connected, tried, emit]

/-- The connection to the target of a port forward: not needed, made, or refused. -/
theorem connectPortForwardIfNeeded_cases (hr : s.connectPortForwardIfNeeded env = r) :
    (r = (s, true) ∧
        (s.portForwardSocket.isSome = true ∨ ∀ pf, s.lr.union ≠ some (.portForward pf))) ∨
      (∃ pf, s.lr.union = some (.portForward pf) ∧ s.portForwardSocket = none ∧
        (r = (s.connected pf, true) ∨
          r.2 = false ∧ Frame (fun _ => False) (s.tried pf) r.1)) := by
  unfold connectPortForwardIfNeeded at hr
  split at hr
  · rename_i hsome
    exact .inl ⟨hr.symm, .inl hsome⟩
  · rename_i hnone
    split at hr
    · rename_i pf hpf
      refine .inr ⟨pf, hpf, by simpa using hnone, ?_⟩
      dsimp only at hr
      split at hr <;> subst hr
      · exact .inl rfl
      · exact .inr ⟨rfl, frame_sendLoginError _⟩
    · rename_i hno
      exact .inl ⟨hr.symm, .inr fun pf hpf => hno pf hpf⟩

/-- The outcome of the last step of a login: refused by the target, or authorized. -/
theorem connectAndAuthorize_cases (hr : s.connectAndAuthorize b env = r) :
    (r = (s.authorize b env, true) ∧
        (s.portForwardSocket.isSome = true ∨ ∀ pf, s.lr.union ≠ some (.portForward pf))) ∨
      (∃ pf, s.lr.union = some (.portForward pf) ∧ s.portForwardSocket = none ∧
        (r = ((s.connected pf).authorize b env, true) ∨
          r.2 = false ∧ Frame (fun _ => False) (s.tried pf) r.1)) := by
  unfold connectAndAuthorize at hr
  generalize hc : s.connectPortForwardIfNeeded env = c at hr
  rcases connectPortForwardIfNeeded_cases hc with ⟨rfl, hno⟩ | ⟨pf, hpf, hn, rfl | ⟨hf, hq⟩⟩
  · exact .inl ⟨hr.symm, hno⟩
  · exact .inr ⟨pf, hpf, hn, .inl hr.symm⟩
  · obtain ⟨s₁, ok⟩ := c
    cases hf
    exact .inr ⟨pf, hpf, hn, .inr ⟨hr ▸ rfl, hr ▸ hq⟩⟩

theorem loginScoped_true (s : Connection) : LoginScoped b (fun _ => True) s :=
  ⟨fun _ => trivial, fun _ _ _ _ => trivial⟩

theorem authorize_log (s : Connection) (b : Build) (env : Env) :
    ∃ new, (s.authorize b env).log = new ++ .authorize s.kind s.lr s.terminalServiceId :: s.log := by
  obtain ⟨-, new, hl, -⟩ := settles_authorize env (loginScoped_true (b := b) s.setAuthorized)
  exact ⟨new, hl⟩

theorem suffix_authorize : s.log <:+ (s.authorize b env).log := by
  obtain ⟨new, hl⟩ := authorize_log s b env
  rw [hl]
  exact (List.suffix_cons _ s.log).trans (List.suffix_append new _)

theorem suffix_tried (pf : PortForward) : s.log <:+ (s.tried pf).log := List.suffix_cons _ s.log

theorem suffix_connected (pf : PortForward) : s.log <:+ (s.connected pf).log := suffix_tried pf

theorem Grows.suffix (h : Grows k s s') : s.log <:+ s'.log := by
  obtain ⟨new, hl, -⟩ := h
  rw [hl]
  exact List.suffix_append new s.log

theorem Outcome.grows (h : Outcome k s r) : Grows k s r.1 := by
  unfold Outcome at h
  split at h
  · exact h.2
  · exact h.2

theorem LoginStep.suffix (h : LoginStep b a s r) : s.log <:+ r.1.log := by
  cases h with
  | quiet h => exact h.grows.suffix
  | attempt new tok hl _ _ =>
    rw [hl]
    exact List.suffix_append new s.log
  | entry e _ _ hl =>
    rw [hl]
    exact List.suffix_cons e s.log
  | token t mid _ _ _ hl _ =>
    rw [hl]
    exact (List.suffix_cons _ s.log).trans (List.suffix_append (_ :: mid) _)
  | authorize env _ _ _ _ =>
    rcases connectAndAuthorize_cases (rfl : s.connectAndAuthorize b env = _) with
      ⟨hr, -⟩ | ⟨pf, -, -, hr | ⟨-, hq⟩⟩
    · rw [hr]
      exact suffix_authorize
    · rw [hr]
      exact (suffix_connected pf).trans suffix_authorize
    · exact (suffix_tried pf).trans hq.2.suffix

theorem LoginRun.suffix (h : LoginRun b a s r) : s.log <:+ r.1.log := by
  induction h with
  | nil s => exact List.suffix_refl s.log
  | cons h _ ih => exact h.suffix.trans ih
  | last h => exact h.suffix

theorem LoginRun.primary (h : LoginRun b a s r) (hp : a ∨ Primary s.log) : a ∨ Primary r.1.log :=
  hp.imp_right fun hp => hp.suffix h.suffix

/-! ### The handlers -/

theorem secondFactor_run {c : Connection × Bool}
    (hc : (if s.require2fa.isSome then s.isRecentSession env true else (s, true)) = c) :
    LoginRun b a s (c.1, true) ∧ c.1.core = s.core ∧
      (c.2 = true → s.require2fa = none ∨ .recentSession true ∈ c.1.log) := by
  split at hc
  · obtain ⟨hcore, hl⟩ := isRecentSession_spec hc
    refine ⟨isRecentSession_run hc, hcore, fun hok => .inr ?_⟩
    rw [hl, hok]
    simp
  · rename_i hnone
    subst hc
    exact ⟨.nil s, rfl, fun _ => .inl (by simpa using hnone)⟩

/-- `send_logon_response_and_keep_alive` is a run of small steps. -/
theorem sendLogonResponseAndKeepAlive_run (hp : s.authorized = false → a ∨ Primary s.log)
    (hr : s.sendLogonResponseAndKeepAlive b env = r) : LoginRun b a s r := by
  unfold sendLogonResponseAndKeepAlive at hr
  split at hr
  · subst hr
    exact .nil s
  · rename_i hauth
    rw [Bool.not_eq_true] at hauth
    generalize hc : (if s.require2fa.isSome = true then s.isRecentSession env true else (s, true)) = c
      at hr
    obtain ⟨hrun, hcore, hsecond⟩ := secondFactor_run (b := b) (a := a) hc
    obtain ⟨s₁, passed⟩ := c
    dsimp only at hr hrun hcore hsecond
    split at hr
    · subst hr
      exact hrun.trans (.of_frame (frame_sendLoginError _))
    · rename_i hpass
      generalize ht : s₁.prepareTerminalLoginForAuthorization b env = t at hr
      rcases prepareTerminalLogin_run (a := a) ht with ⟨h0, hrun', tok, htok, hterm⟩ | ⟨h0, hrun'⟩
      · obtain ⟨s₂, keep⟩ := t
        cases h0
        subst hr
        have hcore₂ : s₂.core = { s.core with terminalUserToken := tok } := by rw [htok, hcore]
        refine hrun.trans (hrun'.trans (.single (.authorize env ?_ ?_ ?_ ?_)))
        · exact (congrArg Core.authorized hcore₂).trans hauth
        · exact hrun'.primary (hrun.primary (hp hauth))
        · rw [show s₂.require2fa = s.require2fa from congrArg Core.require2fa hcore₂,
            show s₂.fromSwitch = s₁.fromSwitch from congrArg Core.fromSwitch htok]
          cases passed with
          | true =>
            rcases hsecond rfl with h | h
            · exact .inl h
            · exact .inr (.inl (hrun'.suffix.mem h))
          | false => exact .inr (.inr (by simpa using hpass))
        · rw [show s₂.terminal = s₁.terminal from congrArg Core.terminal htok,
            show s₂.terminalUserToken = tok from congrArg Core.terminalUserToken htok]
          exact hterm
      · obtain ⟨s₂, keep⟩ := t
        cases h0
        subst hr
        exact hrun.trans hrun'

theorem waitForClick_run {lr : LoginRequest} {noPassword : Bool}
    (hr : s.waitForClick b env lr noPassword = r) : LoginRun b a s r := by
  unfold waitForClick at hr
  extract_lets c at hr
  have hc : (c.2 = none ∧ LoginRun b a s (c.1, true)) ∨
      (c.2 = some false ∧ LoginRun b a s (c.1, false)) := by
    unfold c
    split
    · rcases prepareTerminalLogin_run (a := a)
          (rfl : s.prepareTerminalLoginForAuthorization b env = _) with
        ⟨h, hrun, -⟩ | h
      · exact .inl ⟨h, hrun⟩
      · exact .inr h
    · exact .inl ⟨rfl, .nil s⟩
  obtain ⟨s₁, keep⟩ := c
  rcases hc with ⟨h, hrun⟩ | ⟨h, hrun⟩
  · cases h
    dsimp only at hr
    split at hr <;> subst hr
    · exact hrun.trans (.frame_trans (frame_tryStartCm _ _ _) (.of_frame (frame_sendLoginError _)))
    · exact hrun.trans (.of_frame (frame_tryStartCm _ _ _))
  · cases h
    subst hr
    exact hrun

theorem loginPassed_run {lr : LoginRequest} {errMsg : String} (hp : a ∨ Primary s.log)
    (hr : s.loginPassed b env lr errMsg = r) : LoginRun b a s r := by
  unfold loginPassed at hr
  split at hr
  · generalize hc : s.sendLogonResponseAndKeepAlive b env = c at hr
    have hrun : LoginRun b a s c := sendLogonResponseAndKeepAlive_run (fun _ => hp) hc
    obtain ⟨s₁, keep⟩ := c
    cases keep with
    | false =>
      subst hr
      exact hrun
    | true =>
      subst hr
      exact hrun.trans (.of_frame (frame_tryStartCm _ _ _))
  · subst hr
    exact .of_frame (frame_sendLoginError _)

theorem loginWithPassword_run {lr : LoginRequest} {errMsg : String}
    (hr : s.loginWithPassword b env lr errMsg = r) : LoginRun b a s r := by
  unfold loginWithPassword at hr
  generalize hc : s.checkFailure env 0 .default = c at hr
  have hq : Frame (fun _ => False) s c.1 := hc ▸ frame_checkFailure 0 .default
  obtain ⟨s₁, ok⟩ := c
  cases ok with
  | false =>
    subst hr
    exact .of_frame hq
  | true =>
    dsimp only at hr
    generalize hv : s₁.validatePassword env _ = v at hr
    obtain ⟨hrun, hprim⟩ := hv ▸ validatePassword_run (b := b) (a := a) (s := s₁) env _
    obtain ⟨s₂, ok⟩ := v
    cases ok with
    | false =>
      refine .frame_trans hq (hrun.trans ?_)
      dsimp only at hr
      have hfail : Frame (fun _ => False) s₂
          ((s₂.emit (.updateFailure false 0 .default)).emit (.temporaryPassword false)) :=
        (frame_quiet rfl rfl).trans (frame_quiet rfl rfl)
      split at hr <;> subst hr
      · exact .of_frame (hfail.trans ((frame_sendLoginError _).trans (frame_tryStartCm _ _ _)))
      · exact .of_frame (hfail.trans (frame_sendLoginError _))
    | true =>
      refine .frame_trans hq (hrun.trans (.frame_trans (frame_quiet rfl rfl)
        (loginPassed_run (.inr ?_) hr)))
      exact (hprim rfl).suffix (List.suffix_cons _ _)

theorem loginValidate_run {lr : LoginRequest} {errMsg : String}
    (hr : s.loginValidate b env lr errMsg = r) : LoginRun b a s r := by
  unfold loginValidate at hr
  split at hr
  · exact waitForClick_run hr
  · generalize hc : s.isRecentSession env false = c at hr
    have hrun : LoginRun b a s (c.1, true) := isRecentSession_run hc
    obtain ⟨-, hl⟩ := isRecentSession_spec hc
    obtain ⟨s₁, ok⟩ := c
    cases ok with
    | true =>
      refine hrun.trans (loginPassed_run (.inr ⟨.recentSession false, ?_, rfl⟩) hr)
      rw [hl]
      simp
    | false =>
      refine hrun.trans ?_
      dsimp only at hr
      split at hr
      · split at hr
        · exact waitForClick_run hr
        · subst hr
          exact .of_frame (frame_sendLoginError _)
      · exact loginWithPassword_run hr

theorem loginDesktop_run {lr : LoginRequest} (hr : s.loginDesktop b env lr = r) :
    LoginRun b a s r := by
  have hcheck : ∀ (c : Bool) (s : Connection), Frame (fun _ => False) s
      (if c = true then s.checkFailure env 0 .default else (s, true)).1 := by
    intro c s
    split
    · exact frame_checkFailure _ _
    · exact .refl s
  unfold loginDesktop at hr
  split at hr
  · exact loginValidate_run hr
  · extract_lets headless errMsg at hr
    generalize hc : (if (headless && env.linuxDesktopUsernameEmpty) = true then
      s.checkFailure env 0 .default else (s, true)) = c at hr
    have hq : Frame (fun _ => False) s c.1 := hc ▸ hcheck _ s
    obtain ⟨s₁, ok⟩ := c
    cases ok with
    | false =>
      subst hr
      exact .of_frame hq
    | true =>
      refine .frame_trans hq ?_
      dsimp only at hr
      split at hr
      · exact loginValidate_run hr
      · generalize hc' : (if (headless && errMsg == "Wrong Password") = true then
          s₁.checkFailure env 0 .default else (s₁, true)) = c' at hr
        have hq' : Frame (fun _ => False) s₁ c'.1 := hc' ▸ hcheck _ s₁
        obtain ⟨s₂, ok⟩ := c'
        cases ok with
        | false =>
          subst hr
          exact .of_frame hq'
        | true =>
          refine .frame_trans hq' ?_
          dsimp only at hr
          subst hr
          split
          · exact .of_frame ((frame_quiet rfl rfl).trans (frame_sendLoginError _))
          · exact .of_frame (frame_sendLoginError _)

end Connection

end RustDesk
