import RustDesk.ConnectionTurns

/-!
# The invariant rule of a connection

A statement about the order of login outcomes is a predicate `P` on a log entry and the
entries before it. It holds along every run when some invariant `I` of the core and the
log is kept by each kind of turn, and supplies `P` whenever an entry is added. `Rule`
lists these obligations; `Rule.throughout` is the induction over the run, for the runs
whose turns all meet the condition `ok`.
-/

namespace RustDesk

open Connection

def Core.kind (c : Core) : AuthConnType :=
  if c.fileTransfer.isSome then .fileTransfer
  else if c.portForwardSocket.isSome then .portForward
  else if c.viewCamera then .viewCamera
  else if c.terminal then .terminal
  else .remote

/-- The core of a connection that was authorized with the core `c`. -/
def Core.authorize (c : Core) (p : Permissions) (t : String) (o : Option OptionMessage) : Core :=
  { c with
    authorized := true
    authedConnId := some c.kind
    perms := p
    terminalServiceId := t
    optionsInLogin := o }

/-- The core with the connection to a target made. -/
def Core.connect (c : Core) (pf : PortForward) : Core :=
  { c with
    portForwardAddress := (normalizePortForwardTarget pf).1
    portForwardSocket := some (normalizePortForwardTarget pf).1 }

/-- The core and the log when the authorization is reached: the target of a port forward
was connected to on the way. -/
def Connects (c : Core) (log : List Effect) (c' : Core) (log' : List Effect) : Prop :=
  (c' = c ∧ log' = log ∧
      (c.portForwardSocket.isSome = true ∨ ∀ pf, c.lr.union ≠ some (.portForward pf))) ∨
    ∃ pf, c.lr.union = some (.portForward pf) ∧ c.portForwardSocket = none ∧ c' = c.connect pf ∧
      log' = .tcpConnect (normalizePortForwardTarget pf).1 c.lr :: log

/-- A connection is authorized as `k` exactly when an authorization as `k` is on record. -/
def Logged (c : Core) (log : List Effect) : Prop :=
  c.authorized = c.authedConnId.isSome ∧
    ∀ k, c.authedConnId = some k ↔ ∃ lr sid, Effect.authorize k lr sid ∈ log

/-- The obligations of an invariant `I` for a condition `ok` on turns. `K` gives the kinds
whose capabilities a connection that is authorized as its first argument may use. -/
structure Rule (b : Build) (a : Prop) (ok : Connection → Env × Event → Prop)
    (K : Option AuthConnType → AuthConnType → Prop) (P : Effect → List Effect → Prop)
    (I : Core → List Effect → Prop) : Prop where
  perms {c log} (p : Permissions) : I c log → I { c with perms := p } log
  grow {c log e} : e.isLogin = false → I c log → I c (e :: log)
  quiet {c log e before} : I c log → e.Within (K c.authedConnId) → log <:+ before → P e before
  attempt {e before} : e.isAttempt = true → P e before
  entry {c log e} : (e = .validatePassword true ∨ ∃ tfa, e = .recentSession tfa) →
    I c log → I c (e :: log)
  token {c log mid} (t : TerminalUserToken) : c.terminal = true → c.terminalUserToken = none →
    (∀ e ∈ mid, e.isLogin = false) → I c log →
    I { c with terminalUserToken := some t } (.serviceUserCheck c.terminalServiceId true :: mid ++
      .fillTerminalUserToken (trim c.lr.osLogin.username) c.lr.osLogin.password none :: log)
  connect {c log pf} : I c log → c.authorized = false → c.lr.union = some (.portForward pf) →
    P (.tcpConnect (normalizePortForwardTarget pf).1 c.lr) log
  authorize {c log c' log'} : I c log → c.authorized = false → (a ∨ Primary log) →
    (c.require2fa = none ∨ .recentSession true ∈ log ∨ c.fromSwitch = true) →
    (b.mobile = true ∨ c.terminal = false ∨ c.terminalUserToken.isSome = true) →
    Connects c log c' log' →
    P (.authorize c'.kind c'.lr c'.terminalServiceId) log' ∧
      ∀ p t o, I (c'.authorize p t o) (.authorize c'.kind c'.lr c'.terminalServiceId :: log')
  request {s env lr s₁} (addr : String) : I s.core s.log → s.authorized = false →
    ok s (env, .message (.loginRequest lr)) → Installs lr s s₁ →
    I (permitted lr addr s₁.core)
      (((needed (asked lr)).map fun opt => Effect.permission opt lr true).toList ++ s₁.log)
  switch {s env uuid lr s₁} : I s.core s.log → b.flutterDesktop = true →
    (s.authorized = true → s.authedConnId = some .remote) →
    ok s (env, .message (.switchSidesResponse uuid (some lr))) → Installs lr s s₁ → I s₁.core s₁.log
  switched {c log} : I c log → I { c with fromSwitch := true } (.switchSides :: log)
  clicked {c log} : I c log → I { c with require2fa := none } (.cmAuthorize :: log)
  code {c log} : I c log → I { c with require2fa := none } (.totp true :: log)
  primary {s env code hwid} : I s.core s.log → ok s (env, .message (.auth2fa code hwid)) →
    s.accepts2fa env code = true → s.authorized = false → a ∨ Primary s.log
  within {s env m} : I s.core s.log → Logged s.core s.log → ok s (env, .message m) →
    s.authorized = true → s.authorizedScopeViolation b m = none →
    Scoped b (K s.authedConnId) m s
  loginScoped {c log c' log'} : I c log → c.authorized = false → Connects c log c' log' →
    (c'.kind = .terminal → K (some c'.kind) .terminal) ∧
      (c'.kind = .remote → ∀ o, c'.optionsInLogin = some o →
        setsTerminalPersistent b o = true → K (some c'.kind) .terminal)

variable {b : Build} {a : Prop} {ok : Connection → Env × Event → Prop}
  {K : Option AuthConnType → AuthConnType → Prop} {P : Effect → List Effect → Prop}
  {I : Core → List Effect → Prop} {c c' : Core} {log new : List Effect}
  {s s' : Connection} {r : Connection × Bool}

theorem Connects.suffix {log' : List Effect} (h : Connects c log c' log') : log <:+ log' := by
  rcases h with ⟨-, rfl, -⟩ | ⟨pf, -, -, -, rfl⟩
  · exact List.suffix_refl _
  · exact List.suffix_cons _ log

/-! ### Entries that are not authorizations -/

theorem isAttempt_authorize (k : AuthConnType) (lr : LoginRequest) (sid : String) :
    (Effect.authorize k lr sid).isAttempt = false := rfl

theorem isAttempt_of_within {e : Effect} (h : e.Within fun _ => False) : e.isAttempt = true := by
  have hscope : e.scope = none := by
    cases hj : e.scope with
    | none => rfl
    | some j => exact (h.2 j hj).elim
  cases e with
  | authorize kind lr sid => cases h.1
  | tcpConnect addr lr => cases h.1
  | _ => simp only [Effect.isAttempt, hscope, Option.isNone_none]

theorem Logged.append (new : List Effect) (hno : ∀ k lr sid, Effect.authorize k lr sid ∉ new) (h : Logged c log) :
    Logged c (new ++ log) := by
  refine ⟨h.1, fun k => (h.2 k).trans ?_⟩
  constructor
  · rintro ⟨lr, sid, hm⟩
    exact ⟨lr, sid, List.mem_append_right new hm⟩
  · rintro ⟨lr, sid, hm⟩
    rcases List.mem_append.mp hm with hn | hm
    · exact absurd hn (hno k lr sid)
    · exact ⟨lr, sid, hm⟩

theorem Logged.attempt (hn : ∀ e ∈ new, e.isAttempt = true) (h : Logged c log) :
    Logged c (new ++ log) := by
  refine h.append new fun k lr sid hm => ?_
  have := hn _ hm
  rw [isAttempt_authorize] at this
  cases this

theorem Logged.grow (hn : ∀ e ∈ new, e.isLogin = false) (h : Logged c log) :
    Logged c (new ++ log) := by
  refine h.append new fun k lr sid hm => ?_
  cases hn _ hm

/-- `Logged` looks at two fields of the core only. -/
theorem Logged.congr (ha : c'.authorized = c.authorized) (hk : c'.authedConnId = c.authedConnId)
    (h : Logged c log) : Logged c' log := by
  unfold Logged
  rw [ha, hk]
  exact h

namespace Rule

theorem grow_append (R : Rule b a ok K P I) (hn : ∀ e ∈ new, e.isLogin = false) (h : I c log) :
    I c (new ++ log) := by
  induction new with
  | nil => exact h
  | cons e new ih =>
    exact R.grow (hn e (by simp)) (ih fun e he => hn e (by simp [he]))

theorem always_quiet (R : Rule b a ok K P I) (hI : I c log)
    (hn : ∀ e ∈ new, e.Within (K c.authedConnId)) (h : History.Always P log) :
    History.Always P (new ++ log) := by
  induction new with
  | nil => exact h
  | cons e new ih =>
    exact ⟨R.quiet hI (hn e (by simp)) (List.suffix_append new log),
      ih fun e he => hn e (by simp [he])⟩

theorem always_attempt (R : Rule b a ok K P I) (hn : ∀ e ∈ new, e.isAttempt = true)
    (h : History.Always P log) : History.Always P (new ++ log) := by
  induction new with
  | nil => exact h
  | cons e new ih => exact ⟨R.attempt (hn e (by simp)), ih fun e he => hn e (by simp [he])⟩

end Rule

/-- What holds in every state, and the invariant while the loop goes on. -/
def Good (P : Effect → List Effect → Prop) (s : Connection) : Prop :=
  History.Always P s.log ∧ Logged s.core s.log

def Keeps (P : Effect → List Effect → Prop) (I : Core → List Effect → Prop)
    (s : Connection) (keep : Bool) : Prop :=
  Good P s ∧ (keep = true → I s.core s.log)

theorem Keeps.stop {keep keep' : Bool} (h : Keeps P I s keep) (hle : keep' = true → keep = true) :
    Keeps P I s keep' :=
  ⟨h.1, fun hk => h.2 (hle hk)⟩

namespace Rule

/-- The core is unchanged and the new entries are within the kinds of the session. -/
theorem keeps_frame (R : Rule b a ok K P I) {k : AuthConnType → Prop}
    (hk : ∀ j, k j → K s.authedConnId j) (h : Frame k s s') (hs : Keeps P I s true) :
    Keeps P I s' true := by
  obtain ⟨hc, new, hl, hn⟩ := h
  have hI := hs.2 rfl
  refine ⟨⟨?_, ?_⟩, fun _ => ?_⟩
  · rw [hl]
    exact R.always_quiet hI (fun e he => ⟨(hn e he).1, fun j hj => hk j ((hn e he).2 j hj)⟩) hs.1.1
  · rw [hl, hc]
    exact hs.1.2.grow fun e he => (hn e he).1
  · rw [hl, hc]
    exact R.grow_append (fun e he => (hn e he).1) hI

theorem keeps_leave (R : Rule b a ok K P I) {k : AuthConnType → Prop}
    (hk : ∀ j, k j → K s.authedConnId j) (h : Leave k s s') (hs : Keeps P I s true) :
    Keeps P I s' false := by
  obtain ⟨hc, new, hl, hn⟩ := h
  have ha : s'.core.dropSocket.authorized = s.core.dropSocket.authorized :=
    congrArg Core.authorized hc
  have hk' : s'.core.dropSocket.authedConnId = s.core.dropSocket.authedConnId :=
    congrArg Core.authedConnId hc
  refine ⟨⟨?_, ?_⟩, fun hf => by cases hf⟩
  · rw [hl]
    exact R.always_quiet (hs.2 rfl)
      (fun e he => ⟨(hn e he).1, fun j hj => hk j ((hn e he).2 j hj)⟩) hs.1.1
  · rw [hl]
    exact (hs.1.2.grow fun e he => (hn e he).1).congr ha hk'

theorem keeps_outcome (R : Rule b a ok K P I) {k : AuthConnType → Prop}
    (hk : ∀ j, k j → K s.authedConnId j) (h : Outcome k s r) (hs : Keeps P I s true) :
    Keeps P I r.1 r.2 := by
  obtain ⟨s', keep⟩ := r
  cases keep with
  | true => exact R.keeps_frame hk h hs
  | false => exact R.keeps_leave hk h hs

theorem keeps_authorize (R : Rule b a ok K P I) {env : Env} (hs : Good P s)
    (hauth : s.authorized = false)
    (hscope : (s.core.kind = .terminal → K (some s.core.kind) .terminal) ∧
      (s.core.kind = .remote → ∀ o, s.core.optionsInLogin = some o →
        setsTerminalPersistent b o = true → K (some s.core.kind) .terminal))
    (hP : P (.authorize s.kind s.lr s.terminalServiceId) s.log)
    (hI : ∀ p t o, I (s.core.authorize p t o) (.authorize s.kind s.lr s.terminalServiceId :: s.log)) :
    Keeps P I (s.authorize b env) true := by
  have hI₁ : I s.setAuthorized.core s.setAuthorized.log :=
    hI s.perms s.terminalServiceId s.optionsInLogin
  have hlogin : LoginScoped b (K (some s.kind)) s.setAuthorized :=
    ⟨fun hk => hscope.1 (Option.some.inj hk), fun hk => hscope.2 (Option.some.inj hk)⟩
  obtain ⟨⟨p, t, o, hc⟩, new, hl, hn⟩ := settles_authorize env hlogin
  have hlog : Logged s.setAuthorized.core s.setAuthorized.log := by
    have hnone : s.authedConnId = none := by
      have := hs.2.1
      change s.authorized = s.authedConnId.isSome at this
      simpa [hauth] using this.symm
    refine ⟨rfl, fun k => ?_⟩
    change some s.kind = some k ↔ _
    constructor
    · intro hk
      rw [← Option.some.inj hk]
      exact ⟨s.lr, s.terminalServiceId, by simp [setAuthorized, emit]⟩
    · rintro ⟨lr, sid, hm⟩
      rcases List.mem_cons.mp hm with he | hm
      · cases he
        rfl
      · have := (hs.2.2 k).mpr ⟨lr, sid, hm⟩
        rw [show s.core.authedConnId = s.authedConnId from rfl, hnone] at this
        cases this
  have hcore : (s.authorize b env).core = s.core.authorize p t o := hc
  refine ⟨⟨?_, ?_⟩, fun _ => ?_⟩
  · rw [hl]
    exact R.always_quiet hI₁ hn ⟨hP, hs.1⟩
  · rw [hl, hcore]
    exact (hlog.grow fun e he => (hn e he).1).congr rfl rfl
  · rw [hl, hcore]
    exact R.grow_append (fun e he => (hn e he).1) (hI p t o)

theorem keeps_step (R : Rule b a ok K P I) (hs : Keeps P I s true) (h : LoginStep b a s r) :
    Keeps P I r.1 r.2 := by
  have hI := hs.2 rfl
  cases h with
  | quiet h => exact R.keeps_outcome (fun _ hf => hf.elim) h hs
  | attempt new tok hl hn hc =>
    refine ⟨⟨?_, ?_⟩, fun hf => by cases hf⟩
    · rw [hl]
      exact R.always_attempt hn hs.1.1
    · rw [hl, hc]
      exact (hs.1.2.attempt hn).congr rfl rfl
  | entry e he hc hl =>
    have hatt : ∀ e' ∈ [e], e'.isAttempt = true := by
      rcases he with rfl | ⟨tfa, rfl⟩ <;> simp [Effect.isAttempt, Effect.scope]
    refine ⟨⟨?_, ?_⟩, fun _ => ?_⟩
    · rw [hl]
      exact R.always_attempt hatt hs.1.1
    · rw [hl, hc]
      exact hs.1.2.attempt hatt
    · rw [hl, hc]
      exact R.entry he hI
  | token t mid ht hn hc hl hmid =>
    have hfill : ∀ e ∈ [Effect.fillTerminalUserToken (trim s.lr.osLogin.username)
        s.lr.osLogin.password none], e.isAttempt = true := by simp [Effect.isAttempt, Effect.scope]
    have hcheck : ∀ e ∈ Effect.serviceUserCheck s.terminalServiceId true :: mid,
        e.isAttempt = true := by
      intro e he
      rcases List.mem_cons.mp he with rfl | he
      · rfl
      · exact isAttempt_of_within (hmid e he)
    refine ⟨⟨?_, ?_⟩, fun _ => ?_⟩
    · rw [hl]
      exact R.always_attempt hcheck (R.always_attempt hfill hs.1.1)
    · rw [hl, hc]
      exact ((hs.1.2.attempt hfill).attempt hcheck).congr rfl rfl
    · rw [hl, hc]
      exact R.token t ht hn (fun e he => (hmid e he).1) hI
  | authorize env hauth hp hsecond htok =>
    rcases connectAndAuthorize_cases (rfl : s.connectAndAuthorize b env = _) with
      ⟨hr, hno⟩ | ⟨pf, hpf, hnone, hr | ⟨hf, hq⟩⟩
    · have hc : Connects s.core s.log s.core s.log := .inl ⟨rfl, rfl, hno⟩
      obtain ⟨hP, hI'⟩ := R.authorize hI hauth hp hsecond htok hc
      rw [hr]
      exact R.keeps_authorize hs.1 hauth (R.loginScoped hI hauth hc) hP hI'
    · have hgood : Good P (s.connected pf) := by
        refine ⟨⟨R.connect hI hauth hpf, hs.1.1⟩, ?_⟩
        apply Logged.congr (c := s.core) (authorized_connected pf) (authedConnId_connected pf)
        exact hs.1.2.append [.tcpConnect (normalizePortForwardTarget pf).1 s.lr] (by simp)
      have hc : Connects s.core s.log (s.connected pf).core (s.connected pf).log :=
        .inr ⟨pf, hpf, hnone, rfl, rfl⟩
      obtain ⟨hP, hI'⟩ := R.authorize hI hauth hp hsecond htok hc
      have hauth' : (s.connected pf).authorized = false := (authorized_connected pf).trans hauth
      rw [hr]
      exact R.keeps_authorize hgood hauth' (R.loginScoped hI hauth hc) hP hI'
    · obtain ⟨hc, new, hl, hn⟩ := hq
      have hatt : ∀ e ∈ new, e.isAttempt = true := fun e he => isAttempt_of_within (hn e he)
      have hlog : Logged s.core (s.tried pf).log :=
        hs.1.2.append [.tcpConnect (normalizePortForwardTarget pf).1 s.lr] (by simp)
      rw [hf]
      refine ⟨⟨?_, ?_⟩, fun h => by cases h⟩
      · rw [hl]
        exact R.always_attempt hatt ⟨R.connect hI hauth hpf, hs.1.1⟩
      · rw [hl, hc]
        exact (hlog.attempt hatt).congr rfl rfl

theorem keeps_run (R : Rule b a ok K P I) (hs : Keeps P I s true) (h : LoginRun b a s r) :
    Keeps P I r.1 r.2 :=
  h.keeps (J := Keeps P I) (fun _ _ hs h => R.keeps_step hs h) hs

/-! ### Turns -/

/-- The state with a login request installed is as good as the one before. -/
theorem good_installs (R : Rule b a ok K P I) {lr : LoginRequest} (h : Installs lr s s')
    (hs : Good P s) : Good P s' := by
  obtain ⟨req, hc, ⟨-, hl⟩ | ⟨-, hl⟩⟩ := h
  · have hatt : ∀ e ∈ [Effect.installLogin lr], e.isAttempt = true := by
      simp [Effect.isAttempt, Effect.scope]
    refine ⟨?_, ?_⟩
    · rw [hl]
      exact R.always_attempt hatt hs.1
    · rw [hl, hc]
      exact (hs.2.attempt hatt).congr rfl rfl
  · have hatt : ∀ e ∈ [.trustedDevice, Effect.installLogin lr], e.isAttempt = true := by
      simp [Effect.isAttempt, Effect.scope]
    refine ⟨?_, ?_⟩
    · rw [hl]
      exact R.always_attempt hatt hs.1
    · rw [hl, hc]
      exact (hs.2.attempt hatt).congr rfl rfl

/-- One entry of a login, with the core changed outside the two fields of `Logged`. -/
theorem good_entries (R : Rule b a ok K P I) (new : List Effect) (hs : Good P s) (hl : s'.log = new ++ s.log)
    (hn : ∀ e ∈ new, e.isAttempt = true) (ha : s'.authorized = s.authorized)
    (hk : s'.authedConnId = s.authedConnId) : Good P s' := by
  refine ⟨?_, ?_⟩
  · rw [hl]
    exact R.always_attempt hn hs.1
  · rw [hl]
    exact Logged.congr (c := s.core) ha hk (hs.2.attempt hn)

theorem keeps_request (R : Rule b a ok K P I) {env : Env} {lr : LoginRequest}
    (hauth : s.authorized = false) (hok : ok s (env, .message (.loginRequest lr)))
    (hr : s.onLoginRequest b env lr = r) (hs : Keeps P I s true) : Keeps P I r.1 r.2 := by
  obtain ⟨s₁, hins, hscope⟩ := requested_cases (b := b) (s := s) env lr
  have hgood := R.good_installs hins hs.1
  have hreq : Keeps P I (s.requested b env lr).1 (s.requested b env lr).2 := by
    rcases hscope with ⟨h2, new, addr, hl, hn, hc⟩ | ⟨h2, addr, hc, hl⟩
    · exact ⟨R.good_entries _ hgood hl hn (congrArg Core.authorized hc)
        (congrArg Core.authedConnId hc), fun h => by rw [h2] at h; cases h⟩
    · refine ⟨R.good_entries _ hgood hl ?_ (congrArg Core.authorized hc)
        (congrArg Core.authedConnId hc), fun _ => ?_⟩
      · intro e he
        simp only [Option.mem_toList, Option.map_eq_some_iff] at he
        obtain ⟨opt, -, rfl⟩ := he
        rfl
      · rw [hc, hl]
        exact R.request addr (hs.2 rfl) hauth hok hins
  rcases onLoginRequest_cases (a := a) hauth hr with rfl | ⟨h2, hrun⟩
  · exact hreq.stop fun h => by cases h
  · exact R.keeps_run (hreq.stop fun _ => h2) hrun

theorem keeps_code (R : Rule b a ok K P I) {env : Env} {code : String} {hwid : Bytes}
    (hok : ok s (env, .message (.auth2fa code hwid)))
    (hr : s.onAuth2fa b env code hwid = r) (hs : Keeps P I s true) : Keeps P I r.1 r.2 := by
  rcases onAuth2fa_cases (a := a) hr with ⟨h2, hq⟩ | ⟨hacc, s₁, hc, hl, hrun⟩
  · rw [h2]
    exact R.keeps_frame (fun _ hf => hf.elim) hq hs
  · have hI := hs.2 rfl
    have hs₁ : Keeps P I s₁ true := by
      refine ⟨R.good_entries [.updateFailure true 1 .default, .totp true] hs.1 hl
        (by simp [Effect.isAttempt, Effect.scope]) (congrArg Core.authorized hc)
        (congrArg Core.authedConnId hc), fun _ => ?_⟩
      rw [hc, hl]
      exact R.grow rfl (R.code hI)
    refine R.keeps_run hs₁ (hrun fun hauth => ?_)
    refine (R.primary hI hok hacc hauth).imp_right fun hp => hp.suffix ?_
    rw [hl]
    exact List.suffix_append [.updateFailure true 1 .default, .totp true] s.log

theorem keeps_switch (R : Rule b a ok K P I) {env : Env} {uuid : Bytes} {lr : Option LoginRequest}
    (hremote : s.authorized = true → s.authedConnId = some .remote)
    (hok : ok s (env, .message (.switchSidesResponse uuid lr)))
    (hr : s.onSwitchSidesResponse b env uuid lr = r) (hs : Keeps P I s true) :
    Keeps P I r.1 r.2 := by
  rcases onSwitchSidesResponse_cases (a := a) hr with ⟨rfl, -⟩ | ⟨lr', hb, rfl, s₁, hins, hcase⟩
  · exact hs
  · have hs₁ : Keeps P I s₁ true :=
      ⟨R.good_installs hins hs.1, fun _ => R.switch (hs.2 rfl) hb hremote hok hins⟩
    rcases hcase with rfl | ⟨s₂, hc, hl, hrun⟩
    · exact hs₁
    · refine R.keeps_run ⟨R.good_entries [.switchSides] hs₁.1 hl
        (by simp [Effect.isAttempt, Effect.scope]) (congrArg Core.authorized hc)
        (congrArg Core.authedConnId hc), fun _ => ?_⟩ hrun
      rw [hc, hl]
      exact R.switched (hs₁.2 rfl)

theorem keeps_click (R : Rule b a ok K P I) {env : Env} (hr : s.onAuthorize b env = r)
    (hs : Keeps P I s true) : Keeps P I r.1 r.2 := by
  obtain ⟨s₁, keep, hc, hl, hrun, hle⟩ := onAuthorize_cases (a := a) hr
  have hs₁ : Keeps P I s₁ true := by
    refine ⟨R.good_entries [.cmAuthorize] hs.1 hl (by simp [Effect.isAttempt, Effect.scope])
      (congrArg Core.authorized hc) (congrArg Core.authedConnId hc), fun _ => ?_⟩
    rw [hc, hl]
    exact R.clicked (hs.2 rfl)
  exact (R.keeps_run hs₁ hrun).stop hle

/-- A switch of sides passes the filter of an authorized connection only if that one is
remote. -/
theorem remote_of_switch {uuid : Bytes} {lr : Option LoginRequest} (hs : Good P s)
    (hpass : s.authorized = true →
      s.authorizedScopeViolation b (.switchSidesResponse uuid lr) = none)
    (hauth : s.authorized = true) : s.authedConnId = some .remote := by
  have hsome : s.authorized = s.authedConnId.isSome := hs.2.1
  rw [hauth] at hsome
  obtain ⟨k, hk⟩ := Option.isSome_iff_exists.mp hsome.symm
  have hnone := hpass hauth
  simp only [authorizedScopeViolation, hk] at hnone
  rw [authorizedMessageScopeViolation_eq_none] at hnone
  cases k with
  | remote => exact hk
  | _ =>
    simp [isConnectionHousekeepingMessage, noopCompat, isRenderBroadcastNoopCompatMessage,
      isTextClipboardNoopCompatMessage, allowedMessage, isFileTransferScopedMessage,
      isViewCameraScopedMessage, isTerminalScopedMessage] at hnone

theorem keeps_event (R : Rule b a ok K P I) {i : Env × Event} (hok : ok s i)
    (hr : s.onEvent b i.1 i.2 = r) (hs : Keeps P I s true) : Keeps P I r.1 r.2 := by
  obtain ⟨env, ev⟩ := i
  have hI := hs.2 rfl
  have hturn : Turn b env (K s.authedConnId) s ev r := by
    refine onEvent_turn hr fun m hm hauth hpass => ?_
    subst hm
    exact R.within hI hs.1.2 hok hauth hpass
  cases hturn with
  | quiet p _ ho =>
    have hp : Keeps P I { s with perms := p } true :=
      ⟨⟨hs.1.1, hs.1.2⟩, fun _ => R.perms p hI⟩
    exact R.keeps_outcome (fun _ h => h) ho hp
  | request hauth h hle => exact (R.keeps_request hauth hok h hs).stop hle
  | code h hle => exact (R.keeps_code hok h hs).stop hle
  | switch hpass h hle => exact (R.keeps_switch (remote_of_switch hs.1 hpass) hok h hs).stop hle
  | click h => exact R.keeps_click h hs

/-- The invariant along one turn. -/
def Inv (P : Effect → List Effect → Prop) (I : Core → List Effect → Prop) (s : Connection) : Prop :=
  Good P s ∧ (s.ended = false → I s.core s.log)

theorem inv_step (R : Rule b a ok K P I) (s : Connection) (i : Env × Event) (hs : Inv P I s)
    (hok : ok s i) : Inv P I (step b s i) := by
  unfold step
  split
  · exact hs
  · rename_i hended
    rw [Bool.not_eq_true] at hended
    generalize hr : s.onEvent b i.1 i.2 = r
    have hk : Keeps P I r.1 r.2 := R.keeps_event hok hr ⟨hs.1, fun _ => hs.2 hended⟩
    obtain ⟨s', keep⟩ := r
    cases keep with
    | true => exact ⟨hk.1, fun _ => hk.2 rfl⟩
    | false => exact ⟨⟨hk.1.1, hk.1.2⟩, fun h => by cases h⟩

/-- In a run whose turns all meet the condition, every state is good. -/
theorem throughout (R : Rule b a ok K P I) {is : List (Env × Event)}
    (hlog : s.log = []) (hauth : s.authorized = false) (hkind : s.authedConnId = none)
    (hI : I s.core []) (hg : History.Guarded (step b) ok s is) :
    History.Throughout (step b) (Good P) s is := by
  have hinit : Inv P I s := by
    refine ⟨⟨?_, ?_, ?_⟩, fun _ => ?_⟩
    · rw [hlog]
      trivial
    · change s.authorized = s.authedConnId.isSome
      rw [hauth, hkind]
      rfl
    · intro k
      rw [hlog, show s.core.authedConnId = s.authedConnId from rfl, hkind]
      simp
    · rw [hlog]
      exact hI
  exact History.throughout_imp (fun _ h => h.1)
    (History.throughout_of_guarded R.inv_step hinit hg)

end Rule

end RustDesk
