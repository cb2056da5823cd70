import RustDesk.ConnectionInvariant

/-!
# Permission before authorization

A session kind other than remote control needs a permission, which is to be checked for
the login request in force when the session is authorized. Only a login request is
checked; the one that a switch of sides carries is installed as it is, and with it a
port forward goes to its target, or a kind left by an earlier request is kept.
-/

namespace RustDesk

open Connection

def Effect.isInstall : Effect → Bool
  | .installLogin _ => true
  | _ => false

/-- The entries since the login request in force was installed. -/
def sinceLogin (log : List Effect) : List Effect := log.takeWhile fun e => !e.isInstall

theorem mem_sinceLogin_cons {e e' : Effect} {log : List Effect} (he : e.isInstall = false)
    (h : e' ∈ sinceLogin log) : e' ∈ sinceLogin (e :: log) := by
  unfold sinceLogin at h ⊢
  rw [List.takeWhile_cons, he]
  exact List.mem_cons_of_mem e h

theorem mem_sinceLogin_self {e : Effect} {log : List Effect} (he : e.isInstall = false) :
    e ∈ sinceLogin (e :: log) := by
  unfold sinceLogin
  rw [List.takeWhile_cons, he]
  exact List.mem_cons_self

theorem mem_sinceLogin_append {e' : Effect} {log : List Effect} (new : List Effect)
    (hn : ∀ e ∈ new, e.isInstall = false) (h : e' ∈ sinceLogin log) :
    e' ∈ sinceLogin (new ++ log) := by
  induction new with
  | nil => exact h
  | cons e new ih =>
    exact mem_sinceLogin_cons (hn e (by simp)) (ih fun e he => hn e (by simp [he]))

theorem isInstall_of_isLogin {e : Effect} (h : e.isLogin = false) : e.isInstall = false := by
  cases e <;> first | rfl | cases h

/-- Every authorization as a kind that needs a permission came after that permission was
granted to the login request it is for, and so did every connection to a target. -/
def PermittedFirst (s : Connection) : Prop :=
  (∀ k, s.authedConnId = some k → ∃ lr sid, Effect.authorize k lr sid ∈ s.log) ∧
    (∀ after kind lr sid before, s.log = after ++ .authorize kind lr sid :: before →
      ∀ opt, needed kind = some opt → .permission opt lr true ∈ sinceLogin before) ∧
    ∀ after addr lr before, s.log = after ++ .tcpConnect addr lr :: before →
      .permission .tunnel lr true ∈ sinceLogin before ∧
        ∃ pf, lr.union = some (.portForward pf) ∧ addr = (normalizePortForwardTarget pf).1

/-- A switch of sides that installs a login request before authorization does so on a
connection without a kind, and does not ask for a port forward. -/
def PlainSwitch (b : Build) (s : Connection) (i : Env × Event) : Prop :=
  ∀ uuid lr, i.2 = .message (.switchSidesResponse uuid (some lr)) → b.flutterDesktop = true →
    s.ended = false → s.authorized = false →
    s.fileTransfer = none ∧ s.viewCamera = false ∧ s.terminal = false ∧
      ∀ pf, lr.union ≠ some (.portForward pf)

namespace PermissionBinding

variable {c c' : Core} {log : List Effect}

def entryOk (e : Effect) (before : List Effect) : Prop :=
  (∀ kind lr sid, e = .authorize kind lr sid →
    ∀ opt, needed kind = some opt → .permission opt lr true ∈ sinceLogin before) ∧
  ∀ addr lr, e = .tcpConnect addr lr → .permission .tunnel lr true ∈ sinceLogin before ∧
    ∃ pf, lr.union = some (.portForward pf) ∧ addr = (normalizePortForwardTarget pf).1

/-- Before authorization the kind flags are backed by a permission for the login request
in force. -/
structure Inv (c : Core) (log : List Effect) : Prop where
  running : c.ended = false
  socket : c.authorized = false → c.portForwardSocket = none
  file : c.authorized = false → c.fileTransfer.isSome = true →
    .permission .fileTransfer c.lr true ∈ sinceLogin log
  camera : c.authorized = false → c.viewCamera = true →
    .permission .camera c.lr true ∈ sinceLogin log
  terminal : c.authorized = false → c.terminal = true →
    .permission .terminal c.lr true ∈ sinceLogin log
  tunnel : c.authorized = false → ∀ pf, c.lr.union = some (.portForward pf) →
    .permission .tunnel c.lr true ∈ sinceLogin log

/-- Entries that install nothing, with a core that agrees on what `Inv` looks at. -/
theorem Inv.grow (new : List Effect) (h : Inv c log) (hn : ∀ e ∈ new, e.isInstall = false)
    (hc : (c'.ended, c'.authorized, c'.portForwardSocket, c'.fileTransfer, c'.viewCamera,
        c'.terminal, c'.lr) =
      (c.ended, c.authorized, c.portForwardSocket, c.fileTransfer, c.viewCamera, c.terminal,
        c.lr)) : Inv c' (new ++ log) := by
  simp only [Prod.mk.injEq] at hc
  obtain ⟨he, ha, hs, hf, hv, ht, hl⟩ := hc
  constructor
  · exact he.trans h.running
  · rw [ha, hs]
    exact h.socket
  · rw [ha, hf, hl]
    exact fun ha hf => mem_sinceLogin_append new hn (h.file ha hf)
  · rw [ha, hv, hl]
    exact fun ha hv => mem_sinceLogin_append new hn (h.camera ha hv)
  · rw [ha, ht, hl]
    exact fun ha ht => mem_sinceLogin_append new hn (h.terminal ha ht)
  · rw [ha, hl]
    exact fun ha pf hpf => mem_sinceLogin_append new hn (h.tunnel ha pf hpf)

theorem Inv.of_authorized (he : c.ended = false) (ha : c.authorized = true) : Inv c log where
  running := he
  socket h := by rw [ha] at h; cases h
  file h := by rw [ha] at h; cases h
  camera h := by rw [ha] at h; cases h
  terminal h := by rw [ha] at h; cases h
  tunnel h := by rw [ha] at h; cases h

/-- A login request that its permission let through sets the flag of its kind only. -/
theorem Inv.request {lr : LoginRequest} {addr : String} {c₁ : Core} (hlr : c₁.lr = lr)
    (he : c₁.ended = false) (hs : c₁.portForwardSocket = none) :
    Inv (permitted lr addr c₁)
      (((needed (asked lr)).map fun opt => Effect.permission opt lr true).toList ++ log) := by
  have hp : ∀ opt, needed (asked lr) = some opt → .permission opt lr true ∈ sinceLogin
      (((needed (asked lr)).map fun opt => Effect.permission opt lr true).toList ++ log) := by
    intro opt hopt
    rw [hopt]
    exact mem_sinceLogin_self rfl
  constructor
  · exact he
  · exact fun _ => hs
  · intro _ hf
    change Effect.permission .fileTransfer c₁.lr true ∈ _
    rw [hlr]
    refine hp _ ?_
    simp only [permitted] at hf
    split at hf
    · rename_i hu
      simp [asked, hu, needed]
    · cases hf
  · intro _ hv
    change Effect.permission .camera c₁.lr true ∈ _
    rw [hlr]
    refine hp _ ?_
    simp only [permitted, decide_eq_true_eq] at hv
    simp [asked, hv, needed]
  · intro _ ht
    change Effect.permission .terminal c₁.lr true ∈ _
    rw [hlr]
    refine hp _ ?_
    simp only [permitted, decide_eq_true_eq] at ht
    simp [ht, needed]
  · intro _ pf hpf
    change Effect.permission .tunnel c₁.lr true ∈ _
    change c₁.lr.union = _ at hpf
    rw [hlr] at hpf ⊢
    refine hp _ ?_
    simp [asked, hpf, needed]

theorem entryOk_of_isAttempt {e : Effect} {before : List Effect} (he : e.isAttempt = true) :
    entryOk e before := by
  constructor
  · rintro kind lr sid rfl
    cases he
  · rintro addr lr rfl
    cases he

theorem entryOk_authorize {log' : List Effect} (h : Inv c log) (ha : c.authorized = false)
    (hc : Connects c log c' log') :
    entryOk (.authorize c'.kind c'.lr c'.terminalServiceId) log' := by
  refine ⟨?_, fun addr lr he => by cases he⟩
  intro kind lr sid he opt hopt
  cases he
  rcases hc with ⟨rfl, rfl, hno⟩ | ⟨pf, hpf, -, rfl, rfl⟩
  · rw [h.socket ha] at hno
    simp only [Core.kind, h.socket ha, Option.isSome_none, Bool.false_eq_true, if_false] at hopt
    split_ifs at hopt with hf hv ht
    · cases hopt
      exact h.file ha hf
    · cases hopt
      exact h.camera ha hv
    · cases hopt
      exact h.terminal ha ht
    · cases hopt
  · simp only [Core.kind, Core.connect, Option.isSome_some, if_true] at hopt
    split_ifs at hopt with hf
    · cases hopt
      exact mem_sinceLogin_cons rfl (h.file ha hf)
    · cases hopt
      exact mem_sinceLogin_cons rfl (h.tunnel ha pf hpf)

theorem rule (b : Build) :
    Rule b True (PlainSwitch b) (fun _ _ => True) entryOk Inv where
  perms _ h := h.grow [] (by simp) rfl
  grow he h := h.grow [_] (by simpa using isInstall_of_isLogin he) rfl
  quiet _ he _ := by
    constructor
    · rintro kind lr sid rfl
      cases he.1
    · rintro addr lr rfl
      cases he.1
  attempt he := entryOk_of_isAttempt he
  entry he h := by
    refine h.grow [_] ?_ rfl
    rcases he with rfl | ⟨tfa, rfl⟩ <;> simp [Effect.isInstall]
  token t _ _ hmid h := by
    refine (h.grow [.fillTerminalUserToken _ _ none] (by simp [Effect.isInstall]) rfl).grow
      (_ :: _) ?_ rfl
    intro e he
    rcases List.mem_cons.mp he with rfl | he
    · rfl
    · exact isInstall_of_isLogin (hmid e he)
  connect h ha hpf := ⟨fun kind lr sid he => (by cases he), fun addr lr he => by
    cases he
    exact ⟨h.tunnel ha _ hpf, _, hpf, rfl⟩⟩
  authorize h ha _ _ _ hc := by
    refine ⟨entryOk_authorize h ha hc, fun p t o => .of_authorized ?_ rfl⟩
    rcases hc with ⟨rfl, -, -⟩ | ⟨pf, -, -, rfl, -⟩
    · exact h.running
    · exact h.running
  request addr h ha _ hi := by
    obtain ⟨req, hc, -⟩ := hi
    rw [hc]
    exact .request rfl h.running (h.socket ha)
  switch := by
    intro s env uuid lr s₁ h hb _ hok hi
    obtain ⟨req, hc, -⟩ := hi
    rw [hc]
    cases ha : s.authorized with
    | true => exact .of_authorized h.running ha
    | false =>
      obtain ⟨hf, hv, ht, hpf⟩ := hok uuid lr rfl hb h.running ha
      constructor
      · exact h.running
      · exact fun _ => h.socket ha
      · intro _ hs
        change s.fileTransfer.isSome = true at hs
        rw [hf] at hs
        cases hs
      · intro _ hs
        change s.viewCamera = true at hs
        rw [hv] at hs
        cases hs
      · intro _ hs
        change s.terminal = true at hs
        rw [ht] at hs
        cases hs
      · exact fun _ pf hs => absurd hs (hpf pf)
  switched h := h.grow [_] (by simp [Effect.isInstall]) rfl
  clicked h := h.grow [_] (by simp [Effect.isInstall]) rfl
  code h := h.grow [_] (by simp [Effect.isInstall]) rfl
  primary _ _ _ _ := .inl trivial
  within _ _ _ _ _ :=
    { input := fun _ => .inr trivial
      file := fun _ _ _ => trivial
      action := fun _ _ _ => trivial
      option := fun _ _ _ _ => trivial
      terminal := fun _ => trivial }
  loginScoped _ _ _ := ⟨fun _ => trivial, fun _ _ _ _ => trivial⟩

theorem of_good {s : Connection} (h : Good entryOk s) : PermittedFirst s := by
  have hall := History.always_iff.mp h.1
  exact ⟨fun k hk => (h.2.2 k).mp hk,
    fun after kind lr sid before hl => (hall _ after before hl).1 kind lr sid rfl,
    fun after addr lr before hl => (hall _ after before hl).2 addr lr rfl⟩

end PermissionBinding

/-- In every run whose switches of sides are plain, a session is authorized, and a target
connected to, only with the permission for the login request in force. -/
theorem permittedFirst_throughout (b : Build) (env : Env) (id : Int) (hash : Hash)
    (get2fa : Option String) (controlPermissions : Option UInt64) (is : List (Env × Event))
    (hg : History.Guarded (step b) (PlainSwitch b)
      (Connection.start b env id hash get2fa controlPermissions) is) :
    History.Throughout (step b) PermittedFirst
      (Connection.start b env id hash get2fa controlPermissions) is := by
  refine History.throughout_imp (fun _ h => PermissionBinding.of_good h)
    ((PermissionBinding.rule b).throughout rfl rfl rfl ?_ hg)
  refine ⟨rfl, fun _ => rfl, ?_, ?_, ?_, ?_⟩
  · intro _ hs
    cases hs
  · intro _ hs
    cases hs
  · intro _ hs
    cases hs
  · intro _ pf hs
    cases hs

/-- A host with the temporary password `a` that does not allow tunnels. -/
def noTunnelEnv : Env :=
  { temporaryPassword := "a", getOption := fun key => if key = "enable-tunnel" then "N" else "" }

def fileTransferLogin : List (Env × Event) :=
  [(noTunnelEnv, .message (.loginRequest
    { password := [97], union := some (.fileTransfer "/" false) }))]

theorem permittedFirst_fileTransferLogin :
    (Connection.run { os := .linux } (Connection.start { os := .linux } noTunnelEnv 1 ⟨"", ""⟩
        none none) fileTransferLogin).authedConnId = some .fileTransfer ∧
      History.Throughout (step { os := .linux }) PermittedFirst
        (Connection.start { os := .linux } noTunnelEnv 1 ⟨"", ""⟩ none none)
        fileTransferLogin := by
  refine ⟨by decide, permittedFirst_throughout { os := .linux } noTunnelEnv 1 ⟨"", ""⟩ none none
    fileTransferLogin ⟨?_, trivial⟩⟩
  intro uuid lr h
  cases h

def switchUuid : Bytes := List.replicate 16 7

/-- A peer whose sides are switched asks for a port forward. -/
def switchToPortForward : List (Env × Event) :=
  [(noTunnelEnv, .interference [] [("peer", 0, switchUuid)]),
    (noTunnelEnv, .message (.switchSidesResponse switchUuid
      (some { myId := "peer", union := some (.portForward ⟨"", 22⟩) })))]

theorem PermittedFirst.tunnel {s : Connection} (h : PermittedFirst s) (addr : String)
    (lr : LoginRequest) (hm : .tcpConnect addr lr ∈ s.log) : .permission .tunnel lr true ∈ s.log := by
  obtain ⟨after, before, hl⟩ := List.append_of_mem hm
  have hbefore := (h.2.2 after addr lr before hl).1
  have hmem : .permission .tunnel lr true ∈ before := List.takeWhile_subset _ hbefore
  rw [hl]
  exact List.mem_append_right after (List.mem_cons_of_mem _ hmem)

/-- A switch of sides connects to a target on a host that allows no tunnels. -/
theorem switchSides_connects :
    ¬ ∀ (b : Build) (env : Env) (id : Int) (hash : Hash) (get2fa : Option String)
      (controlPermissions : Option UInt64) (is : List (Env × Event)),
      History.Throughout (step b) PermittedFirst
        (Connection.start b env id hash get2fa controlPermissions) is := by
  intro h
  have hlast := History.throughout_last (h { os := .linux } noTunnelEnv 1 ⟨"", ""⟩ none none
    switchToPortForward)
  have hm := hlast.tunnel "localhost:22"
    { myId := "peer", union := some (.portForward ⟨"", 22⟩) } (by decide)
  revert hm
  decide

end RustDesk
