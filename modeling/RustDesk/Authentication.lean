import RustDesk.ConnectionInvariant

/-!
# Authentication before authorization

A connection is to be authorized only after a primary authentication, and with a second
factor when one was configured at its start. The one way around is the second-factor
code itself: `onAuth2fa` goes on to authorization without a look at what came before.
-/

namespace RustDesk

open Connection

/-- The three outcomes that count as a second factor. -/
def Effect.isSecond : Effect → Bool
  | .totp ok => ok
  | .trustedDevice => true
  | .recentSession tfa => tfa
  | _ => false

def Second (log : List Effect) : Prop := ∃ e ∈ log, e.isSecond = true

theorem Second.suffix {log log' : List Effect} (h : Second log) (hs : log <:+ log') :
    Second log' := by
  obtain ⟨e, he, hp⟩ := h
  exact ⟨e, hs.mem he, hp⟩

/-- A primary authentication, and a second factor unless the primary one was a click in
the connection manager or a switch of sides. -/
def Authenticated (tfa : Bool) (before : List Effect) : Prop :=
  Primary before ∧
    (tfa = true → Second before ∨ .cmAuthorize ∈ before ∨ .switchSides ∈ before)

theorem Authenticated.suffix {tfa : Bool} {log log' : List Effect} (h : Authenticated tfa log)
    (hs : log <:+ log') : Authenticated tfa log' := by
  refine ⟨h.1.suffix hs, fun ht => ?_⟩
  rcases h.2 ht with h | h | h
  · exact .inl (h.suffix hs)
  · exact .inr (.inl (hs.mem h))
  · exact .inr (.inr (hs.mem h))

/-- An authorized connection has its authorization on record, and every authorization on
record came after the authentication it needs. -/
def AuthenticatedFirst (tfa : Bool) (s : Connection) : Prop :=
  (s.authorized = true → ∃ kind lr sid, Effect.authorize kind lr sid ∈ s.log) ∧
    ∀ after kind lr sid before, s.log = after ++ .authorize kind lr sid :: before →
      Authenticated tfa before

/-- No second-factor code is accepted before a primary authentication. -/
def CodeAfterPrimary (s : Connection) (i : Env × Event) : Prop :=
  ∀ code hwid, i.2 = .message (.auth2fa code hwid) → s.ended = false → s.authorized = false →
    s.accepts2fa i.1 code = true → Primary s.log

namespace Authentication

variable {c : Core} {log : List Effect} {tfa : Bool}

def entryOk (tfa : Bool) (e : Effect) (before : List Effect) : Prop :=
  ∀ kind lr sid, e = .authorize kind lr sid → Authenticated tfa before

/-- The flags that let a login pass the second factor are backed by the log. -/
structure Inv (tfa : Bool) (c : Core) (log : List Effect) : Prop where
  running : c.ended = false
  switched : c.fromSwitch = true → .switchSides ∈ log
  settled : tfa = true → c.require2fa = none → Second log ∨ .cmAuthorize ∈ log

theorem Inv.grow {c' : Core} {log' : List Effect} (h : Inv tfa c log) (hs : log <:+ log')
    (he : c'.ended = c.ended) (hf : c'.fromSwitch = c.fromSwitch)
    (hr : c'.require2fa = c.require2fa) : Inv tfa c' log' where
  running := he.trans h.running
  switched hc := hs.mem (h.switched (hf ▸ hc))
  settled ht hc := (h.settled ht (hr ▸ hc)).imp (fun h => h.suffix hs) fun h => hs.mem h

theorem Inv.settle {c' : Core} {e : Effect} (h : Inv tfa c log)
    (hs : e.isSecond = true ∨ e = .cmAuthorize) (he : c'.ended = c.ended)
    (hf : c'.fromSwitch = c.fromSwitch) : Inv tfa c' (e :: log) where
  running := he.trans h.running
  switched hc := List.mem_cons_of_mem e (h.switched (hf ▸ hc))
  settled _ _ := by
    rcases hs with hs | rfl
    · exact .inl ⟨e, by simp, hs⟩
    · exact .inr (by simp)

theorem Inv.installs {s s₁ : Connection} {lr : LoginRequest} (h : Inv tfa s.core s.log)
    (hi : Installs lr s s₁) : Inv tfa s₁.core s₁.log := by
  obtain ⟨req, hc, ⟨hreq, hl⟩ | ⟨-, hl⟩⟩ := hi
  · rw [hl, hc]
    exact h.grow (List.suffix_cons _ _) rfl rfl hreq
  · have h₁ : Inv tfa s.core (.installLogin lr :: s.log) := h.grow (List.suffix_cons _ _) rfl rfl rfl
    rw [hl, hc]
    exact h₁.settle (.inl rfl) rfl rfl

theorem authenticated (h : Inv tfa c log) (hp : Primary log)
    (hsecond : c.require2fa = none ∨ .recentSession true ∈ log ∨ c.fromSwitch = true) :
    Authenticated tfa log := by
  refine ⟨hp, fun ht => ?_⟩
  rcases hsecond with hnone | hrecent | hswitch
  · exact (h.settled ht hnone).imp_right .inl
  · exact .inl ⟨_, hrecent, rfl⟩
  · exact .inr (.inr (h.switched hswitch))

theorem rule (b : Build) (tfa : Bool) :
    Rule b False CodeAfterPrimary (fun _ _ => True) (entryOk tfa) (Inv tfa) where
  perms _ h := h.grow (List.suffix_refl _) rfl rfl rfl
  grow _ h := h.grow (List.suffix_cons _ _) rfl rfl rfl
  quiet _ he _ := by
    rintro kind lr sid rfl
    cases he.1
  attempt he := by
    rintro kind lr sid rfl
    cases he
  entry _ h := h.grow (List.suffix_cons _ _) rfl rfl rfl
  token _ _ _ _ h := h.grow ((List.suffix_cons _ _).trans (List.suffix_append (_ :: _) _)) rfl rfl rfl
  connect _ _ _ := by
    rintro kind lr sid he
    cases he
  authorize h _ hp hsecond _ hc := by
    have hauth : Authenticated tfa _ := (authenticated h (hp.resolve_left id) hsecond).suffix hc.suffix
    refine ⟨fun _ _ _ _ => hauth, fun p t o => ?_⟩
    rcases hc with ⟨rfl, rfl, -⟩ | ⟨pf, -, -, rfl, rfl⟩
    · exact h.grow (List.suffix_cons _ _) rfl rfl rfl
    · exact h.grow ((List.suffix_cons _ _).trans (List.suffix_cons _ _)) rfl rfl rfl
  request addr h _ _ hi := (h.installs hi).grow (List.suffix_append _ _) rfl rfl rfl
  switch h _ _ _ hi := h.installs hi
  switched h :=
    { running := h.running
      switched := fun _ => by simp
      settled := fun ht hr => (h.settled ht hr).imp (fun h => h.suffix (List.suffix_cons _ _))
        fun h => List.mem_cons_of_mem _ h }
  clicked h := h.settle (.inr rfl) rfl rfl
  code h := h.settle (.inl rfl) rfl rfl
  primary h hok hacc hauth := .inr (hok _ _ rfl h.running hauth hacc)
  within _ _ _ _ _ :=
    { input := fun _ => .inr trivial
      file := fun _ _ _ => trivial
      action := fun _ _ _ => trivial
      option := fun _ _ _ _ => trivial
      terminal := fun _ => trivial }
  loginScoped _ _ _ := ⟨fun _ => trivial, fun _ _ _ _ => trivial⟩

theorem of_good {s : Connection} (h : Good (entryOk tfa) s) : AuthenticatedFirst tfa s := by
  refine ⟨fun hauth => ?_, fun after kind lr sid before hl => ?_⟩
  · have hsome : s.authorized = s.authedConnId.isSome := h.2.1
    rw [hauth] at hsome
    obtain ⟨k, hk⟩ := Option.isSome_iff_exists.mp hsome.symm
    exact ⟨k, (h.2.2 k).mp hk⟩
  · exact History.always_iff.mp h.1 _ after before hl kind lr sid rfl

end Authentication

/-- In every run in which a second-factor code is accepted only after a primary
authentication, no connection is authorized without the authentication it needs. -/
theorem authenticatedFirst_throughout (b : Build) (env : Env) (id : Int) (hash : Hash)
    (get2fa : Option String) (controlPermissions : Option UInt64) (is : List (Env × Event))
    (hg : History.Guarded (step b) CodeAfterPrimary
      (Connection.start b env id hash get2fa controlPermissions) is) :
    History.Throughout (step b) (AuthenticatedFirst get2fa.isSome)
      (Connection.start b env id hash get2fa controlPermissions) is := by
  refine History.throughout_imp (fun _ h => Authentication.of_good h)
    ((Authentication.rule b get2fa.isSome).throughout rfl rfl rfl ?_ hg)
  refine ⟨rfl, fun h => (by cases h), fun ht hr => ?_⟩
  rw [show get2fa = none from hr] at ht
  cases ht

/-- A host with the temporary password `a`, for which every second-factor code is right. -/
def codeEnv : Env := { temporaryPassword := "a", totpCheckCurrent := fun _ _ => some true }

def passwordThenCode : List (Env × Event) :=
  [(codeEnv, .message (.loginRequest { password := [97] })),
    (codeEnv, .message (.auth2fa "123456" []))]

theorem authenticatedFirst_passwordThenCode :
    (Connection.run { os := .linux } (Connection.start { os := .linux } codeEnv 1 ⟨"", ""⟩
        (some "secret") none) passwordThenCode).authorized = true ∧
      History.Throughout (step { os := .linux }) (AuthenticatedFirst true)
        (Connection.start { os := .linux } codeEnv 1 ⟨"", ""⟩ (some "secret") none)
        passwordThenCode := by
  refine ⟨by decide, authenticatedFirst_throughout { os := .linux } codeEnv 1 ⟨"", ""⟩
    (some "secret") none passwordThenCode ⟨?_, ?_, trivial⟩⟩
  · intro code hwid h
    cases h
  · intro code hwid _ _ _ _
    unfold Primary
    decide

theorem AuthenticatedFirst.primary {tfa : Bool} {s : Connection} (h : AuthenticatedFirst tfa s)
    (hauth : s.authorized = true) : Primary s.log := by
  obtain ⟨kind, lr, sid, hm⟩ := h.1 hauth
  obtain ⟨after, before, hl⟩ := List.append_of_mem hm
  refine (h.2 after kind lr sid before hl).1.suffix ?_
  rw [hl]
  exact (List.suffix_cons _ _).trans (List.suffix_append after _)

/-- A correct second-factor code alone authorizes a connection. -/
theorem code_alone_authorizes :
    ¬ ∀ (b : Build) (env : Env) (id : Int) (hash : Hash) (get2fa : Option String)
      (controlPermissions : Option UInt64) (is : List (Env × Event)),
      History.Throughout (step b) (AuthenticatedFirst get2fa.isSome)
        (Connection.start b env id hash get2fa controlPermissions) is := by
  intro h
  have hlast := History.throughout_last (h { os := .linux } codeEnv 1 ⟨"", ""⟩ (some "secret") none
    [(codeEnv, .message (.auth2fa "123456" []))])
  have hp := hlast.primary (by decide)
  revert hp
  unfold Primary
  decide

end RustDesk
