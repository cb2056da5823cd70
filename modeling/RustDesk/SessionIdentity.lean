import RustDesk.ConnectionInvariant

/-!
# The identity of an authorized session

Who the peer is, the kind of its session and what it was granted are to be fixed once the
connection is authorized. The one message that still replaces the login request is a
switch of sides, which the filter of a remote session lets through.
-/

namespace RustDesk

open Connection

/-- The login request, the kind and the permissions of a session. -/
structure Identity where
  lr : LoginRequest
  authedConnId : Option AuthConnType
  fileTransfer : Option (String × Bool)
  viewCamera : Bool
  terminal : Bool
  portForwardAddress : String
  perms : Permissions
  deriving DecidableEq

def Core.identity (c : Core) : Identity :=
  { lr := c.lr
    authedConnId := c.authedConnId
    fileTransfer := c.fileTransfer
    viewCamera := c.viewCamera
    terminal := c.terminal
    portForwardAddress := c.portForwardAddress
    perms := c.perms }

/-- The identity is kept, and so is the socket of a port forward while the loop goes on. -/
def SameIdentity (s s' : Connection) : Prop :=
  s'.core.identity = s.core.identity ∧
    (s'.ended = false → s'.portForwardSocket = s.portForwardSocket)

/-- A message of the peer keeps the identity of an authorized session. -/
def IdentityKept (b : Build) (s : Connection) (i : Env × Event) : Prop :=
  ∀ m, i.2 = .message m → s.authorized = true → SameIdentity s (step b s i)

/-- No switch of sides brings another login request into a remote session. -/
def NoLateSwitch (b : Build) (s : Connection) (i : Env × Event) : Prop :=
  ∀ uuid lr, i.2 = .message (.switchSidesResponse uuid (some lr)) → b.flutterDesktop = true →
    s.ended = false → s.authorized = true → s.authedConnId = some .remote → lr = s.lr

namespace SessionIdentity

variable {b : Build} {s s' : Connection} {r : Connection × Bool} {x : Identity}
  {y : Option String} {k : AuthConnType → Prop} {env : Env}

/-- The session is authorized with the identity `x`, and the socket `y` while the handler
keeps the connection. -/
def Fixed (x : Identity) (y : Option String) (s : Connection) (keep : Bool) : Prop :=
  s.authorized = true ∧ s.core.identity = x ∧ (keep = true → s.portForwardSocket = y)

theorem Fixed.of_core (h : Fixed x y s true) (hc : s'.core = s.core) : Fixed x y s' true := by
  refine ⟨(congrArg Core.authorized hc).trans h.1, ?_, fun _ => ?_⟩
  · rw [hc]
    exact h.2.1
  · exact (congrArg Core.portForwardSocket hc).trans (h.2.2 rfl)

theorem Fixed.outcome (h : Fixed x y s true) (ho : Outcome k s r) : Fixed x y r.1 r.2 := by
  obtain ⟨s', keep⟩ := r
  cases keep with
  | true => exact h.of_core (And.left ho)
  | false =>
    have hc : s'.core.dropSocket = s.core.dropSocket := And.left ho
    refine ⟨(congrArg Core.authorized hc).trans h.1, ?_, fun hf => by cases hf⟩
    exact (congrArg Core.identity hc).trans h.2.1

/-- No small step of a login touches a session that is authorized already. -/
theorem Fixed.step (h : Fixed x y s true) (hs : LoginStep b True s r) : Fixed x y r.1 r.2 := by
  cases hs with
  | quiet ho => exact h.outcome ho
  | attempt new tok _ _ hc =>
    refine ⟨(congrArg Core.authorized hc).trans h.1, ?_, fun hf => by cases hf⟩
    exact (congrArg Core.identity hc).trans h.2.1
  | entry e _ hc _ => exact h.of_core hc
  | token t mid _ _ hc _ _ =>
    refine ⟨(congrArg Core.authorized hc).trans h.1, ?_, fun _ => ?_⟩
    · exact (congrArg Core.identity hc).trans h.2.1
    · exact (congrArg Core.portForwardSocket hc).trans (h.2.2 rfl)
  | authorize env ha _ _ _ =>
    rw [h.1] at ha
    cases ha

theorem Fixed.run (h : Fixed x y s true) (hr : LoginRun b True s r) : Fixed x y r.1 r.2 :=
  hr.keeps (J := Fixed x y) (fun _ _ h hs => h.step hs) h

theorem Fixed.stop {keep keep' : Bool} (h : Fixed x y s keep)
    (hle : keep' = true → keep = true) : Fixed x y s keep' :=
  ⟨h.1, h.2.1, fun hk => h.2.2 (hle hk)⟩

theorem Fixed.code {code : String} {hwid : Bytes} (h : Fixed x y s true)
    (hr : s.onAuth2fa b env code hwid = r) : Fixed x y r.1 r.2 := by
  rcases onAuth2fa_cases (a := True) hr with ⟨h2, hq⟩ | ⟨-, s₁, hc, -, hrun⟩
  · rw [h2]
    exact h.of_core hq.1
  · have h₁ : Fixed x y s₁ true := by
      refine ⟨(congrArg Core.authorized hc).trans h.1, ?_, fun _ => ?_⟩
      · exact (congrArg Core.identity hc).trans h.2.1
      · exact (congrArg Core.portForwardSocket hc).trans (h.2.2 rfl)
    exact h₁.run (hrun fun _ => .inl trivial)

/-- A switch of sides leaves the session with the login request it carries. -/
theorem Fixed.switch {uuid : Bytes} {lr : LoginRequest} (hb : b.flutterDesktop = true)
    (h : Fixed x y s true) (hr : s.onSwitchSidesResponse b env uuid (some lr) = r) :
    Fixed { x with lr := lr } y r.1 r.2 := by
  rcases onSwitchSidesResponse_cases (a := True) hr with ⟨-, hno⟩ | ⟨lr', -, hlr, s₁, hins, hcase⟩
  · simp [hb] at hno
  · cases hlr
    obtain ⟨req, hc, -⟩ := hins
    have hfix : ∀ s₂ : Connection, (∃ f, s₂.core = { s₁.core with fromSwitch := f }) →
        Fixed { x with lr := lr } y s₂ true := by
      rintro s₂ ⟨f, hc₂⟩
      rw [hc] at hc₂
      refine ⟨(congrArg Core.authorized hc₂).trans h.1, ?_, fun _ => ?_⟩
      · rw [← h.2.1]
        exact congrArg Core.identity hc₂
      · exact (congrArg Core.portForwardSocket hc₂).trans (h.2.2 rfl)
    rcases hcase with rfl | ⟨s₂, hc₂, -, hrun⟩
    · exact hfix s₁ ⟨_, rfl⟩
    · exact (hfix s₂ ⟨true, hc₂⟩).run hrun

theorem remote_of_pass {uuid : Bytes} {lr : Option LoginRequest}
    (h : s.authorizedScopeViolation b (.switchSidesResponse uuid lr) = none) :
    s.authedConnId = some .remote := by
  unfold authorizedScopeViolation at h
  split at h
  · rename_i k hk
    rw [authorizedMessageScopeViolation_eq_none] at h
    cases k <;>
      simp_all [isConnectionHousekeepingMessage, noopCompat, isRenderBroadcastNoopCompatMessage,
        isTextClipboardNoopCompatMessage, allowedMessage, isFileTransferScopedMessage,
        isViewCameraScopedMessage, isTerminalScopedMessage]
  · cases h

/-- The handler of a message, for a session the message does not switch. -/
theorem Fixed.event {ev : Event} {m : Message} (h : Fixed x y s true) (hm : ev = .message m)
    (hok : NoLateSwitch b s (env, ev)) (he : s.ended = false) (hr : s.onEvent b env ev = r) :
    Fixed x y r.1 r.2 := by
  have hturn : Turn b env (fun _ => True) s ev r := by
    refine onEvent_turn hr fun m _ _ _ => ?_
    exact
      { input := fun _ => .inr trivial
        file := fun _ _ _ => trivial
        action := fun _ _ _ => trivial
        option := fun _ _ _ _ => trivial
        terminal := fun _ => trivial }
  clear hr
  cases hturn with
  | quiet p hp ho =>
    rw [hp m hm] at ho
    exact h.outcome ho
  | request ha =>
    rw [h.1] at ha
    cases ha
  | code hr hle => exact (h.code hr).stop hle
  | click hr => cases hm
  | @switch uuid lr s₁ keep keep' hpass hr hle =>
    cases lr with
    | none =>
      rcases onSwitchSidesResponse_cases (a := True) hr with ⟨hs, -⟩ | ⟨lr', -, hlr, -⟩
      · cases hs
        exact h.stop fun _ => rfl
      · cases hlr
    | some lr =>
      by_cases hb : b.flutterDesktop = true
      · have hlr := hok uuid lr rfl hb he h.1 (remote_of_pass (hpass h.1))
        have hfix := (h.switch hb hr).stop hle
        have hx : x.lr = s.lr := (congrArg Identity.lr h.2.1).symm
        rw [hlr, ← hx] at hfix
        exact hfix
      · rcases onSwitchSidesResponse_cases (a := True) hr with ⟨hs, -⟩ | ⟨lr', hb', -⟩
        · cases hs
          exact h.stop fun _ => rfl
        · exact absurd hb' hb

theorem lr_step (env : Env) (uuid : Bytes) (lr : LoginRequest) (hb : b.flutterDesktop = true)
    (he : s.ended = false) (ha : s.authorized = true) (hk : s.authedConnId = some .remote) :
    (step b s (env, .message (.switchSidesResponse uuid (some lr)))).lr = lr := by
  have hpass : s.authorizedScopeViolation b (.switchSidesResponse uuid (some lr)) = none := by
    simp [authorizedScopeViolation, hk, authorizedMessageScopeViolation_eq_none, allowedMessage]
  have hmsg : s.onMessage b env (.switchSidesResponse uuid (some lr)) =
      s.onSwitchSidesResponse b env uuid (some lr) := by
    simp [onMessage, isCloseReason, isLoginRequest, ha, hpass, dispatch]
  have hfix : Fixed s.core.identity s.portForwardSocket s true := ⟨ha, rfl, fun _ => rfl⟩
  unfold step
  rw [if_neg (by simp [he])]
  dsimp only [onEvent, onPeerMessage]
  rw [hmsg]
  generalize hr : s.onSwitchSidesResponse b env uuid (some lr) = c
  have hlr := congrArg Identity.lr (hfix.switch hb hr).2.1
  obtain ⟨s₁, keep⟩ := c
  cases keep with
  | false => exact hlr
  | true =>
    dsimp only
    generalize (!(s₁.portForwardSocket.isSome && s₁.authorized && s₁.lastTestDelay.isNone)) = more
    cases more <;> exact hlr

end SessionIdentity

/-- A message keeps the identity of an authorized session exactly when it is no late
switch of sides. -/
theorem identityKept_iff_noLateSwitch (b : Build) (s : Connection) (i : Env × Event) :
    IdentityKept b s i ↔ NoLateSwitch b s i := by
  obtain ⟨env, ev⟩ := i
  constructor
  · intro h uuid lr hev hb he ha hk
    have hev' : ev = .message (.switchSidesResponse uuid (some lr)) := hev
    subst hev'
    have hid : (step b s (env, _)).lr = s.lr := congrArg Identity.lr (h _ rfl ha).1
    rw [← hid]
    exact (SessionIdentity.lr_step env uuid lr hb he ha hk).symm
  · intro h m hm ha
    unfold step
    split
    · exact ⟨rfl, fun _ => rfl⟩
    · rename_i hended
      rw [Bool.not_eq_true] at hended
      have hfix : SessionIdentity.Fixed s.core.identity s.portForwardSocket s true :=
        ⟨ha, rfl, fun _ => rfl⟩
      generalize hr : s.onEvent b env ev = r
      obtain ⟨-, hid, hsock⟩ := hfix.event hm h hended hr
      obtain ⟨s₁, keep⟩ := r
      cases keep with
      | true => exact ⟨hid, fun _ => hsock rfl⟩
      | false => exact ⟨hid, fun hf => by cases hf⟩

/-- In a run the messages of the peer keep the identity of the authorized session exactly
when none of them is a late switch of sides. -/
theorem identityKept_throughout (b : Build) (env : Env) (id : Int) (hash : Hash)
    (get2fa : Option String) (controlPermissions : Option UInt64) (is : List (Env × Event)) :
    History.Guarded (step b) (IdentityKept b)
        (Connection.start b env id hash get2fa controlPermissions) is ↔
      History.Guarded (step b) (NoLateSwitch b)
        (Connection.start b env id hash get2fa controlPermissions) is :=
  History.guarded_congr (identityKept_iff_noLateSwitch b)

/-- A host with the temporary password `a`. -/
def passwordEnv : Env := { temporaryPassword := "a" }

/-- A remote session is taken over by the login request of a switch of sides, although no
uuid is pending. -/
theorem late_switch_changes_identity :
    ¬ ∀ (b : Build) (env : Env) (id : Int) (hash : Hash) (get2fa : Option String)
      (controlPermissions : Option UInt64) (is : List (Env × Event)),
      History.Guarded (step b) (IdentityKept b)
        (Connection.start b env id hash get2fa controlPermissions) is := by
  intro h
  have hrun := h { os := .linux } passwordEnv 1 ⟨"", ""⟩ none none
    [(passwordEnv, .message (.loginRequest { password := [97], myId := "peer" })),
      (passwordEnv, .message (.switchSidesResponse [] (some { myId := "other" })))]
  have hid := congrArg Identity.lr (hrun.2.1 _ rfl (by decide)).1
  revert hid
  decide

end RustDesk
