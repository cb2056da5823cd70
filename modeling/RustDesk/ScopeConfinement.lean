import RustDesk.TerminalBinding

/-!
# Capabilities stay in the scope of the session

A terminal action and a change of terminal persistence belong to a terminal session, a
file action to a file transfer, input to remote control. The filter in front of the
dispatch lets every message of a remote session through, so there the handlers alone
decide: the token that an earlier terminal login left behind opens a terminal, and an
option message changes the persistence of one.
-/

namespace RustDesk

open Connection

/-- Every use of a capability came after the authorization as its kind, and a connection
is authorized as one kind only. -/
def Confined (s : Connection) : Prop :=
  (∀ k, s.authedConnId = some k ↔ ∃ lr sid, Effect.authorize k lr sid ∈ s.log) ∧
    ∀ after e before, s.log = after ++ e :: before →
      ∀ j, e.scope = some j → ∃ lr sid, Effect.authorize j lr sid ∈ before

/-- The login request `lr` finds no token, and with it the login options in force do not
switch the persistence of a terminal. -/
def Unburdened (b : Build) (lr : LoginRequest) (s : Connection) : Prop :=
  s.terminalUserToken = none ∧
    ∀ o, (if lr.option.isSome then lr.option else s.optionsInLogin) = some o →
      setsTerminalPersistent b o = false

/-- A login request for remote control finds nothing of a terminal, and no option message
of a remote session switches the persistence of one. -/
def NoStrayTerminal (b : Build) (s : Connection) (i : Env × Event) : Prop :=
  s.ended = false →
    (s.authorized = false →
      (∀ lr, i.2 = .message (.loginRequest lr) → lr.union = none → Unburdened b lr s) ∧
      ∀ uuid lr, i.2 = .message (.switchSidesResponse uuid (some lr)) → b.flutterDesktop = true →
        s.fileTransfer = none → s.viewCamera = false → s.terminal = false →
        (∀ pf, lr.union ≠ some (.portForward pf)) → Unburdened b lr s) ∧
    (s.authedConnId = some .remote →
      ∀ o, i.2 = .message (.misc (.option o)) → setsTerminalPersistent b o = false)

namespace ScopeConfinement

variable {b : Build} {c c' : Core} {log : List Effect}

def entryOk (e : Effect) (before : List Effect) : Prop :=
  ∀ j, e.scope = some j → ∃ lr sid, Effect.authorize j lr sid ∈ before

/-- A connection that would be authorized for remote control. -/
structure Plain (c : Core) : Prop where
  file : c.fileTransfer = none
  camera : c.viewCamera = false
  terminal : c.terminal = false
  forward : ∀ pf, c.lr.union ≠ some (.portForward pf)

/-- A session for remote control has nothing of a terminal, and neither has a connection
that would be authorized as one. -/
structure Inv (b : Build) (c : Core) (log : List Effect) : Prop where
  running : c.ended = false
  socket : c.authorized = false → c.portForwardSocket = none
  kind : c.authorized = false → c.authedConnId = none
  logged : ∀ k, c.authedConnId = some k → ∃ lr sid, Effect.authorize k lr sid ∈ log
  file : c.authorized = true → c.fileTransfer.isSome = true → c.authedConnId = some .fileTransfer
  remote : c.authedConnId = some .remote → c.terminal = false ∧ c.terminalUserToken = none
  plain : c.authorized = false → Plain c → c.terminalUserToken = none ∧
    ∀ o, c.optionsInLogin = some o → setsTerminalPersistent b o = false

theorem Inv.grow (new : List Effect) (h : Inv b c log)
    (hc : (c'.ended, c'.authorized, c'.authedConnId, c'.portForwardSocket, c'.fileTransfer,
        c'.viewCamera, c'.terminal, c'.lr, c'.terminalUserToken, c'.optionsInLogin) =
      (c.ended, c.authorized, c.authedConnId, c.portForwardSocket, c.fileTransfer, c.viewCamera,
        c.terminal, c.lr, c.terminalUserToken, c.optionsInLogin)) : Inv b c' (new ++ log) := by
  simp only [Prod.mk.injEq] at hc
  obtain ⟨he, ha, hk, hs, hf, hv, ht, hl, hu, ho⟩ := hc
  have hplain : Plain c' → Plain c := fun hp =>
    ⟨hf ▸ hp.file, hv ▸ hp.camera, ht ▸ hp.terminal, hl ▸ hp.forward⟩
  constructor
  · exact he.trans h.running
  · rw [ha, hs]
    exact h.socket
  · rw [ha, hk]
    exact h.kind
  · intro k hk'
    obtain ⟨lr, sid, hm⟩ := h.logged k (hk ▸ hk')
    exact ⟨lr, sid, List.mem_append_right new hm⟩
  · rw [ha, hf, hk]
    exact h.file
  · rw [hk, ht, hu]
    exact h.remote
  · rw [ha, hu, ho]
    exact fun ha hp => h.plain ha (hplain hp)

/-- An install before authorization settles what `Inv` says of the new login request. -/
theorem Inv.install (he : c.ended = false) (hs : c.portForwardSocket = none)
    (ha : c.authorized = false) (hk : c.authedConnId = none)
    (hp : Plain c → c.terminalUserToken = none ∧
      ∀ o, c.optionsInLogin = some o → setsTerminalPersistent b o = false) : Inv b c log where
  running := he
  socket _ := hs
  kind _ := hk
  logged k h := by
    rw [hk] at h
    cases h
  file h := by
    rw [ha] at h
    cases h
  remote h := by
    rw [hk] at h
    cases h
  plain _ := hp

theorem union_of_plain {lr : LoginRequest} {addr : String} {c₁ : Core} (hlr : c₁.lr = lr)
    (h : Plain (permitted lr addr c₁)) : lr.union = none := by
  obtain ⟨hf, hv, ht, hpf⟩ := h
  cases hu : lr.union with
  | none => rfl
  | some u =>
    cases u with
    | fileTransfer dir showHidden => simp [permitted, hu] at hf
    | portForward pf =>
      refine absurd ?_ (hpf pf)
      change c₁.lr.union = _
      rw [hlr, hu]
    | viewCamera => simp [permitted, hu] at hv
    | terminal sid => simp [permitted, asked, hu] at ht

/-- A connection is authorized for remote control only when it is plain. -/
theorem plain_of_kind {log' : List Effect} (hs : c.portForwardSocket = none)
    (hc : Connects c log c' log') (hk : c'.kind = .remote) : c' = c ∧ Plain c := by
  rcases hc with ⟨rfl, -, hno⟩ | ⟨pf, -, -, rfl, -⟩
  · rw [hs] at hno
    simp only [Option.isSome_none, Bool.false_eq_true, false_or] at hno
    simp only [Core.kind, hs, Option.isSome_none, Bool.false_eq_true, if_false] at hk
    split_ifs at hk with hf hv ht
    refine ⟨rfl, ?_, ?_, ?_, hno⟩
    · simpa using hf
    · simpa using hv
    · simpa using ht
  · simp only [Core.kind, Core.connect, Option.isSome_some, if_true] at hk
    split_ifs at hk

theorem kind_of_pass {s : Connection} {m : Message} (hl : Logged s.core s.log)
    (ha : s.authorized = true) (hpass : s.authorizedScopeViolation b m = none) :
    ∃ k, s.authedConnId = some k ∧ (isConnectionHousekeepingMessage m = true ∨
      noopCompat k m = true ∨ allowedMessage b k m = true) := by
  have hsome : s.authorized = s.authedConnId.isSome := hl.1
  rw [ha] at hsome
  obtain ⟨k, hk⟩ := Option.isSome_iff_exists.mp hsome.symm
  refine ⟨k, hk, ?_⟩
  rw [← authorizedMessageScopeViolation_eq_none]
  simpa only [authorizedScopeViolation, hk] using hpass

/-- Input reaches the handlers of a camera session and of remote control only. -/
theorem input_kind {k : AuthConnType} {m : Message}
    (hm : (∃ me, m = .mouseEvent me) ∨ (∃ c, m = .pointerDeviceEvent c) ∨ (∃ ke, m = .keyEvent ke))
    (h : isConnectionHousekeepingMessage m = true ∨ noopCompat k m = true ∨
      allowedMessage b k m = true) : k = .viewCamera ∨ k = .remote := by
  rcases hm with ⟨me, rfl⟩ | ⟨scale, rfl⟩ | ⟨ke, rfl⟩ <;> cases k <;>
    simp [isConnectionHousekeepingMessage, noopCompat, isRenderBroadcastNoopCompatMessage,
      isTextClipboardNoopCompatMessage, allowedMessage, isFileTransferScopedMessage,
      isTerminalScopedMessage] at h ⊢

/-- A terminal action reaches the handler of a terminal and of remote control only. -/
theorem terminalAction_kind {k : AuthConnType} {a : TerminalAction}
    (h : isConnectionHousekeepingMessage (.terminalAction a) = true ∨
      noopCompat k (.terminalAction a) = true ∨ allowedMessage b k (.terminalAction a) = true) :
    k = .terminal ∨ k = .remote := by
  cases k <;>
    simp [isConnectionHousekeepingMessage, noopCompat, isRenderBroadcastNoopCompatMessage,
      isTextClipboardNoopCompatMessage, allowedMessage, isFileTransferScopedMessage,
      isViewCameraScopedMessage] at h ⊢

theorem scoped_of_pass {s : Connection} {env : Env} {m : Message} (h : Inv b s.core s.log)
    (hl : Logged s.core s.log) (hok : NoStrayTerminal b s (env, .message m))
    (ha : s.authorized = true) (hpass : s.authorizedScopeViolation b m = none) :
    Scoped b (fun j => s.authedConnId = some j) m s := by
  obtain ⟨k, hk, hkind⟩ := kind_of_pass hl ha hpass
  constructor
  · intro hm
    rcases input_kind hm hkind with rfl | rfl
    · exact .inl (by simp [isAuthedViewCameraConn, hk])
    · exact .inr hk
  · exact fun fa _ hf => h.file ha hf
  · rintro a rfl htok
    rcases terminalAction_kind hkind with rfl | rfl
    · exact hk
    · have hnone : s.terminalUserToken = none := (h.remote hk).2
      rw [hnone] at htok
      cases htok
  · rintro o rfl hremote hset
    rw [(hok h.running).2 hremote o rfl] at hset
    cases hset
  · exact fun ht => ht

theorem rule (b : Build) :
    Rule b True (NoStrayTerminal b) (fun o j => o = some j) entryOk (Inv b) where
  perms _ h := h.grow [] rfl
  grow _ h := h.grow [_] rfl
  quiet h he hs := by
    intro j hj
    obtain ⟨lr, sid, hm⟩ := h.logged j (he.2 j hj)
    exact ⟨lr, sid, hs.mem hm⟩
  attempt he := by
    intro j hj
    unfold Effect.isAttempt at he
    split at he
    · cases he
    · cases he
    · rw [hj] at he
      cases he
  entry _ h := h.grow [_] rfl
  token {c log mid} t ht hn _ h := by
    have hlog : ∀ k, c.authedConnId = some k → ∃ lr sid, Effect.authorize k lr sid ∈
        .serviceUserCheck c.terminalServiceId true :: mid ++ .fillTerminalUserToken
          (trim c.lr.osLogin.username) c.lr.osLogin.password none :: log := by
      intro k hk
      obtain ⟨lr, sid, hm⟩ := h.logged k hk
      exact ⟨lr, sid, List.mem_append_right _ (List.mem_cons_of_mem _ hm)⟩
    constructor
    · exact h.running
    · exact h.socket
    · exact h.kind
    · exact hlog
    · exact h.file
    · intro hr
      rw [(h.remote hr).1] at ht
      cases ht
    · intro _ hp
      have htf : c.terminal = false := hp.terminal
      rw [htf] at ht
      cases ht
  connect _ _ _ := by
    intro j hj
    cases hj
  authorize {c log c' log'} h ha _ _ _ hc := by
    refine ⟨fun j hj => (by cases hj), fun p t o => ?_⟩
    constructor
    · rcases hc with ⟨rfl, -, -⟩ | ⟨pf, -, -, rfl, -⟩
      · exact h.running
      · exact h.running
    · intro hf
      cases hf
    · intro hf
      cases hf
    · intro k hk
      cases hk
      exact ⟨_, _, List.mem_cons_self⟩
    · intro _ hf
      change c'.fileTransfer.isSome = true at hf
      change some c'.kind = _
      unfold Core.kind
      rw [if_pos hf]
    · intro hk
      obtain ⟨rfl, hplain⟩ := plain_of_kind (h.socket ha) hc (Option.some.inj hk)
      exact ⟨hplain.terminal, (h.plain ha hplain).1⟩
    · intro hf
      cases hf
  request {s env lr s₁} addr h ha hok hi := by
    obtain ⟨req, hc, -⟩ := hi
    rw [hc]
    refine .install h.running (h.socket ha) ha (h.kind ha) fun hp => ?_
    exact ((hok h.running).1 ha).1 lr rfl (union_of_plain rfl hp)
  switch {s env uuid lr s₁} h hb _ hok hi := by
    obtain ⟨req, hc, hl⟩ := hi
    cases ha : s.authorized with
    | false =>
      rw [hc]
      refine .install h.running (h.socket ha) ha (h.kind ha) fun hp => ?_
      exact ((hok h.running).1 ha).2 uuid lr rfl hb hp.file hp.camera hp.terminal hp.forward
    | true =>
      have hlog : ∀ k, s.authedConnId = some k → ∃ lr sid, Effect.authorize k lr sid ∈ s₁.log := by
        intro k hk
        obtain ⟨lr', sid, hm⟩ := h.logged k hk
        refine ⟨lr', sid, ?_⟩
        rcases hl with ⟨-, hl⟩ | ⟨-, hl⟩
        · rw [hl]
          exact List.mem_cons_of_mem _ hm
        · rw [hl]
          exact List.mem_cons_of_mem _ (List.mem_cons_of_mem _ hm)
      have hno : ∀ {p : Prop}, s.authorized = false → p := by
        intro p hf
        rw [ha] at hf
        cases hf
      rw [hc]
      exact ⟨h.running, hno, hno, hlog, h.file, h.remote, hno⟩
  switched h := h.grow [_] rfl
  clicked h := h.grow [_] rfl
  code h := h.grow [_] rfl
  primary _ _ _ _ := .inl trivial
  within h hl hok ha hpass := scoped_of_pass h hl hok ha hpass
  loginScoped {c log c' log'} h ha hc := by
    refine ⟨fun hk => by rw [hk], fun hk o ho hset => ?_⟩
    obtain ⟨rfl, hplain⟩ := plain_of_kind (h.socket ha) hc hk
    rw [(h.plain ha hplain).2 o ho] at hset
    cases hset

theorem of_good {s : Connection} (h : Good entryOk s) : Confined s :=
  ⟨h.2.2, fun after e before hl => History.always_iff.mp h.1 e after before hl⟩

end ScopeConfinement

/-- In every run without strays of a terminal in remote control, a capability is used only
by a session that was authorized as its kind. -/
theorem confined_throughout (b : Build) (env : Env) (id : Int) (hash : Hash)
    (get2fa : Option String) (controlPermissions : Option UInt64) (is : List (Env × Event))
    (hg : History.Guarded (step b) (NoStrayTerminal b)
      (Connection.start b env id hash get2fa controlPermissions) is) :
    History.Throughout (step b) Confined
      (Connection.start b env id hash get2fa controlPermissions) is := by
  refine History.throughout_imp (fun _ h => ScopeConfinement.of_good h)
    ((ScopeConfinement.rule b).throughout rfl rfl rfl ?_ hg)
  exact .install rfl rfl rfl rfl fun _ => ⟨rfl, fun o ho => by cases ho⟩

def clickedAction : List (Env × Event) :=
  clickedTerminal ++ [(clickEnv, .message (.terminalAction (.openTerminal 1 24 80)))]

theorem confined_clickedAction :
    .terminalAction "ts_1" false none (.openTerminal 1 24 80) ∈ (Connection.run { os := .windows }
        (Connection.start { os := .windows } clickEnv 1 ⟨"", ""⟩ none none) clickedAction).log ∧
      History.Throughout (step { os := .windows }) Confined
        (Connection.start { os := .windows } clickEnv 1 ⟨"", ""⟩ none none) clickedAction := by
  refine ⟨by decide, confined_throughout { os := .windows } clickEnv 1 ⟨"", ""⟩ none none
    clickedAction ⟨fun _ => ⟨fun _ => ⟨?_, ?_⟩, ?_⟩, fun _ => ⟨fun _ => ⟨?_, ?_⟩, ?_⟩,
      fun _ => ⟨fun _ => ⟨?_, ?_⟩, ?_⟩, trivial⟩⟩
  · intro lr h hnone
    cases h
    cases hnone
  · intro uuid lr h
    cases h
  · intro _ o h
    cases h
  · intro lr h
    cases h
  · intro uuid lr h
    cases h
  · intro _ o h
    cases h
  · intro lr h
    cases h
  · intro uuid lr h
    cases h
  · intro _ o h
    cases h

theorem Confined.authedConnId {s : Connection} (h : Confined s) (e : Effect) (j : AuthConnType)
    (hm : e ∈ s.log) (hj : e.scope = some j) : s.authedConnId = some j := by
  obtain ⟨after, before, hl⟩ := List.append_of_mem hm
  obtain ⟨lr, sid, hmem⟩ := h.2 after e before hl j hj
  refine (h.1 j).mpr ⟨lr, sid, ?_⟩
  rw [hl]
  exact List.mem_append_right after (List.mem_cons_of_mem e hmem)

/-- A remote session acts on the terminal whose token an earlier login left behind. -/
theorem token_opens_terminal :
    ¬ ∀ (b : Build) (env : Env) (id : Int) (hash : Hash) (get2fa : Option String)
      (controlPermissions : Option UInt64) (is : List (Env × Event)),
      History.Throughout (step b) Confined
        (Connection.start b env id hash get2fa controlPermissions) is := by
  intro h
  have hlast := History.throughout_last (h { os := .windows } clickEnv 1 ⟨"", ""⟩ none none
    [(clickEnv, .message (terminalRequest "ts_1" "alice" "a")),
      (clickEnv, .message (.loginRequest {})), (clickEnv, .cm .authorize),
      (clickEnv, .message (.terminalAction (.openTerminal 1 24 80)))])
  have hkind := hlast.authedConnId
    (.terminalAction "ts_1" false none (.openTerminal 1 24 80)) .terminal (by decide) rfl
  revert hkind
  decide

end RustDesk
