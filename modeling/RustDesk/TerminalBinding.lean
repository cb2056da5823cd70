import RustDesk.PermissionBinding

/-!
# The user and the service of a terminal session

The user token of a terminal is cached in the connection, and its presence skips both the
OS login and the test of the service. A login request replaces the OS user and the
service, but not the token, so that a second terminal login on the same connection is
authorized with what the first one obtained.
-/

namespace RustDesk

open Connection

/-- The token of the OS user of `lr` was obtained, and the service `sid` tested, since the
login request in force was installed. -/
def TokenFor (lr : LoginRequest) (sid : String) (log : List Effect) : Prop :=
  .fillTerminalUserToken (trim lr.osLogin.username) lr.osLogin.password none ∈ sinceLogin log ∧
    .serviceUserCheck sid true ∈ sinceLogin log

theorem TokenFor.append {lr : LoginRequest} {sid : String} {new log : List Effect}
    (h : TokenFor lr sid log) (hn : ∀ e ∈ new, e.isInstall = false) :
    TokenFor lr sid (new ++ log) :=
  ⟨mem_sinceLogin_append new hn h.1, mem_sinceLogin_append new hn h.2⟩

/-- Every authorization as a terminal came after the token and the test for its own login
request and service. -/
def TerminalBound (s : Connection) : Prop :=
  (s.authedConnId = some .terminal → ∃ lr sid, Effect.authorize .terminal lr sid ∈ s.log) ∧
    ∀ after lr sid before, s.log = after ++ .authorize .terminal lr sid :: before →
      TokenFor lr sid before

/-- No token is there when a terminal login is requested, nor when a switch of sides
replaces the login request of a terminal. -/
def FreshToken (b : Build) (s : Connection) (i : Env × Event) : Prop :=
  s.ended = false → s.authorized = false →
    (∀ lr, i.2 = .message (.loginRequest lr) → asked lr = .terminal →
      s.terminalUserToken = none) ∧
    ∀ uuid lr, i.2 = .message (.switchSidesResponse uuid (some lr)) → b.flutterDesktop = true →
      s.terminal = true → s.terminalUserToken = none

namespace TerminalBinding

variable {c c' : Core} {log : List Effect}

def entryOk (e : Effect) (before : List Effect) : Prop :=
  ∀ lr sid, e = .authorize .terminal lr sid → TokenFor lr sid before

/-- Before authorization the token of a terminal belongs to the login request in force. -/
structure Inv (c : Core) (log : List Effect) : Prop where
  running : c.ended = false
  token : c.authorized = false → c.terminal = true → c.terminalUserToken.isSome = true →
    TokenFor c.lr c.terminalServiceId log

theorem Inv.grow (new : List Effect) (h : Inv c log) (hn : ∀ e ∈ new, e.isInstall = false)
    (hc : (c'.ended, c'.authorized, c'.terminal, c'.terminalUserToken, c'.lr,
        c'.terminalServiceId) =
      (c.ended, c.authorized, c.terminal, c.terminalUserToken, c.lr, c.terminalServiceId)) :
    Inv c' (new ++ log) := by
  simp only [Prod.mk.injEq] at hc
  obtain ⟨he, ha, ht, hu, hl, hs⟩ := hc
  constructor
  · exact he.trans h.running
  · rw [ha, ht, hu, hl, hs]
    exact fun ha ht hu => (h.token ha ht hu).append hn

theorem Inv.of_authorized (he : c.ended = false) (ha : c.authorized = true) : Inv c log where
  running := he
  token h := by
    rw [ha] at h
    cases h

theorem Inv.of_none (he : c.ended = false)
    (hn : c.authorized = false → c.terminal = true → c.terminalUserToken = none) : Inv c log where
  running := he
  token ha ht hu := by
    rw [hn ha ht] at hu
    cases hu

theorem terminal_of_kind (h : c.kind = .terminal) : c.terminal = true := by
  unfold Core.kind at h
  split_ifs at h with _ _ _ ht
  exact ht

/-- The connection to a target leaves the fields of a terminal alone. -/
theorem kind_connects {log' : List Effect} (hc : Connects c log c' log')
    (hk : c'.kind = .terminal) : c' = c ∧ log' = log := by
  rcases hc with ⟨rfl, rfl, -⟩ | ⟨pf, -, -, rfl, -⟩
  · exact ⟨rfl, rfl⟩
  · simp only [Core.kind, Core.connect, Option.isSome_some, if_true] at hk
    split_ifs at hk

theorem rule {b : Build} (hb : b.mobile = false) :
    Rule b True (FreshToken b) (fun _ _ => True) entryOk Inv where
  perms _ h := h.grow [] (by simp) rfl
  grow he h := h.grow [_] (by simpa using isInstall_of_isLogin he) rfl
  quiet _ he _ := by
    rintro lr sid rfl
    cases he.1
  attempt he := by
    rintro lr sid rfl
    cases he
  entry he h := by
    refine h.grow [_] ?_ rfl
    rcases he with rfl | ⟨tfa, rfl⟩ <;> simp [Effect.isInstall]
  token {c log mid} t _ _ hmid h := by
    refine ⟨h.running, fun _ _ _ => ⟨?_, mem_sinceLogin_self rfl⟩⟩
    refine mem_sinceLogin_append (_ :: mid) ?_ (mem_sinceLogin_self rfl)
    intro e he
    rcases List.mem_cons.mp he with rfl | he
    · rfl
    · exact isInstall_of_isLogin (hmid e he)
  connect _ _ _ := by
    rintro lr sid he
    cases he
  authorize {c log c' log'} h ha _ _ htok hc := by
    constructor
    · intro lr sid he
      obtain ⟨hk, rfl, rfl⟩ := Effect.authorize.inj he
      obtain ⟨rfl, rfl⟩ := kind_connects hc hk
      have ht := terminal_of_kind hk
      rw [hb, ht] at htok
      simp only [Bool.false_eq_true, false_or] at htok
      exact h.token ha ht (htok.resolve_left (by simp))
    · intro p t o
      refine .of_authorized ?_ rfl
      rcases hc with ⟨rfl, -, -⟩ | ⟨pf, -, -, rfl, -⟩
      · exact h.running
      · exact h.running
  request {s env lr s₁} addr h ha hok hi := by
    obtain ⟨req, hc, -⟩ := hi
    rw [hc]
    refine .of_none h.running fun _ ht => ?_
    exact (hok h.running ha).1 lr rfl (by simpa [permitted] using ht)
  switch {s env uuid lr s₁} h hf _ hok hi := by
    obtain ⟨req, hc, -⟩ := hi
    rw [hc]
    cases ha : s.authorized with
    | true => exact .of_authorized h.running ha
    | false => exact .of_none h.running fun _ ht => (hok h.running ha).2 uuid lr rfl hf ht
  switched h := h.grow [_] (by simp [Effect.isInstall]) rfl
  clicked h := h.grow [_] (by simp [Effect.isInstall]) rfl
  code h := h.grow [_] (by simp [Effect.isInstall]) rfl
  primary _ _ _ _ := .inl trivial
  within _ _ _ _ _ :=
    { input := fun _ => .inr trivial
      file := fun _ _ _ => trivial
      action := fun _ _ _ => trivial
      option := fun _ _ _ _ => trivial
      terminal := fun _ => trivial }
  loginScoped _ _ _ := ⟨fun _ => trivial, fun _ _ _ _ => trivial⟩

theorem of_good {s : Connection} (h : Good entryOk s) : TerminalBound s :=
  ⟨fun hk => (h.2.2 .terminal).mp hk,
    fun after lr sid before hl => History.always_iff.mp h.1 _ after before hl lr sid rfl⟩

end TerminalBinding

/-- On the builds that have user tokens, a terminal is authorized for the user and the
service of its own login request, in every run whose terminal logins find no token. -/
theorem terminalBound_throughout (b : Build) (hb : b.mobile = false) (env : Env) (id : Int)
    (hash : Hash) (get2fa : Option String) (controlPermissions : Option UInt64)
    (is : List (Env × Event))
    (hg : History.Guarded (step b) (FreshToken b)
      (Connection.start b env id hash get2fa controlPermissions) is) :
    History.Throughout (step b) TerminalBound
      (Connection.start b env id hash get2fa controlPermissions) is := by
  refine History.throughout_imp (fun _ h => TerminalBinding.of_good h)
    ((TerminalBinding.rule hb).throughout rfl rfl rfl ?_ hg)
  exact .of_none rfl fun _ ht => by cases ht

/-- An installed Windows host that leaves logins to the click, with one administrator. -/
def clickEnv : Env :=
  { getOption := fun key => if key = "approve-mode" then "click" else ""
    isInstalled := true
    logonUserTokenIsAdmin := fun username password => username == "alice" && password == "a" }

def terminalRequest (serviceId username password : String) : Message :=
  .loginRequest
    { union := some (.terminal serviceId)
      osLogin := { username, password } }

def clickedTerminal : List (Env × Event) :=
  [(clickEnv, .message (terminalRequest "ts_1" "alice" "a")), (clickEnv, .cm .authorize)]

theorem terminalBound_clickedTerminal :
    (Connection.run { os := .windows } (Connection.start { os := .windows } clickEnv 1 ⟨"", ""⟩
        none none) clickedTerminal).authedConnId = some .terminal ∧
      History.Throughout (step { os := .windows }) TerminalBound
        (Connection.start { os := .windows } clickEnv 1 ⟨"", ""⟩ none none) clickedTerminal := by
  refine ⟨by decide, terminalBound_throughout { os := .windows } rfl clickEnv 1 ⟨"", ""⟩ none none
    clickedTerminal ⟨?_, ?_, trivial⟩⟩
  · intro _ _
    exact ⟨fun _ _ _ => rfl, fun _ _ h => by cases h⟩
  · intro _ _
    exact ⟨fun _ h => (by cases h), fun _ _ h => by cases h⟩

theorem TerminalBound.check {s : Connection} (h : TerminalBound s) (lr : LoginRequest)
    (sid : String) (hm : .authorize .terminal lr sid ∈ s.log) :
    .serviceUserCheck sid true ∈ s.log ∧
      .fillTerminalUserToken (trim lr.osLogin.username) lr.osLogin.password none ∈ s.log := by
  obtain ⟨after, before, hl⟩ := List.append_of_mem hm
  obtain ⟨hfill, hcheck⟩ := h.2 after lr sid before hl
  have hsub : ∀ e ∈ sinceLogin before, e ∈ s.log := by
    intro e he
    rw [hl]
    exact List.mem_append_right after (List.mem_cons_of_mem _ (List.takeWhile_subset _ he))
  exact ⟨hsub _ hcheck, hsub _ hfill⟩

/-- The token of `alice` opens a terminal for `bob`, on a service that was not tested. -/
theorem token_outlives_login :
    ¬ ∀ (b : Build), b.mobile = false → ∀ (env : Env) (id : Int) (hash : Hash)
      (get2fa : Option String) (controlPermissions : Option UInt64) (is : List (Env × Event)),
      History.Throughout (step b) TerminalBound
        (Connection.start b env id hash get2fa controlPermissions) is := by
  intro h
  have hlast := History.throughout_last (h { os := .windows } rfl clickEnv 1 ⟨"", ""⟩ none none
    [(clickEnv, .message (terminalRequest "ts_1" "alice" "a")),
      (clickEnv, .message (terminalRequest "ts_2" "bob" "")), (clickEnv, .cm .authorize)])
  have hm := (hlast.check { union := some (.terminal "ts_2"), osLogin := { username := "bob" } }
    "ts_2" (by decide)).1
  revert hm
  decide

end RustDesk
