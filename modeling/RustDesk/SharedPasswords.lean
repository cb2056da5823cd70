import RustDesk.Message
import RustDesk.History
import Mathlib.Logic.Function.Basic

/-!
# Passwords that a client keeps

For each session the client has the hash of the password it sent last, and says where it came from. After
the login the hash is kept for the peer if the user wants that; one from a shared address book is not to
be kept. The sessions with one peer share what is kept, and a session may go on with the token of another.

A text is the bytes of its UTF-8 encoding. Of `PeerConfig` there is only the password.
-/

namespace RustDesk.SharedPasswords

open History (run Guarded Throughout)

inductive PasswordSource
  | personalAb (hash : Bytes)
  | sharedAb (password : Bytes)
  | undefined
  deriving DecidableEq, Repr

structure ConnToken where
  password : Bytes
  passwordSource : PasswordSource
  deriving DecidableEq, Repr

/-- `loaded` is the configuration that `handle_peer_info` has read, `sent` are the passwords in the login
messages, the newest first. -/
structure LoginConfigHandler where
  salt : Bytes := []
  challenge : Bytes := []
  password : Bytes := []
  passwordSource : PasswordSource := .undefined
  remember : Bool := false
  config : Bytes := []
  sharedPassword : Option Bytes := none
  switchUuid : Bool := false
  loaded : Bytes := []
  sent : List Bytes := []
  deriving DecidableEq, Repr

variable (sha256 : Bytes → Bytes)

/-- A password with the salt of the peer. -/
def hashed (password salt : Bytes) : Bytes := sha256 (password ++ salt)

namespace PasswordSource

def isPersonalAb (password : Bytes) : PasswordSource → Bool
  | .personalAb p => !password.isEmpty && p = password
  | _ => false

def isSharedAb (password salt : Bytes) : PasswordSource → Bool
  | .sharedAb p => !password.isEmpty && password = hashed sha256 p salt
  | _ => false

end PasswordSource

/-! ### The order in which passwords are tried

Each step goes on with the password that was found, and where it comes from. -/

abbrev Choice := Bytes × PasswordSource

def orPreset (preset salt : Bytes) (c : Choice) : Choice :=
  if c.1 = [] ∧ preset ≠ [] then (hashed sha256 preset salt, .undefined) else c

/-- A shared password goes before those found so far. -/
def orShared (shared : Option Bytes) (salt : Bytes) (c : Choice) : Choice :=
  match shared with
  | some p => if p ≠ [] then (hashed sha256 p salt, .sharedAb p) else c
  | none => c

def orConfig (config : Bytes) (c : Choice) : Choice :=
  if c.1 = [] then (config, if config ≠ [] then .undefined else c.2) else c

/-- `try_get_password_from_personal_ab`, with the hash that the address book has for the peer. -/
def orPersonalAb (hash : Option Bytes) (c : Choice) : Choice :=
  match hash with
  | some p => if c.1 = [] ∧ p ≠ [] then (p, .personalAb p) else c
  | none => c

def orDefault (p salt : Bytes) (c : Choice) : Choice :=
  if c.1 = [] ∧ p ≠ [] then (hashed sha256 p salt, .sharedAb p) else c

namespace LoginConfigHandler

variable (lc : LoginConfigHandler)

def initializeConfig (config : Bytes) (sharedPassword : Option Bytes) (token : Option ConnToken)
    (switchUuid : Bool) : LoginConfigHandler where
  config := config
  remember := !config.isEmpty
  sharedPassword := sharedPassword
  switchUuid := switchUuid
  password := (token.map ConnToken.password).getD []
  passwordSource := (token.map ConnToken.passwordSource).getD .undefined

def getConnToken : Option ConnToken :=
  if lc.password = [] then none else some ⟨lc.password, lc.passwordSource⟩

/-- `trusted` is what `consume_local_switch_sides_uuid` gives, `default_` the built-in password. -/
def handleHash (salt challenge preset : Bytes) (personalAb : Option Bytes) (default_ : Bytes)
    (trusted : Bool) : LoginConfigHandler :=
  let switched := lc.switchUuid && trusted
  let lc := { lc with salt, challenge, switchUuid := false }
  if switched then { lc with passwordSource := .undefined }
  else
    let c := orDefault sha256 default_ salt (orPersonalAb personalAb (orConfig lc.config
      (orShared sha256 lc.sharedPassword salt (orPreset sha256 preset salt (lc.password, lc.passwordSource)))))
    { lc with
      sharedPassword := none, password := c.1, passwordSource := c.2
      sent := (if c.1 = [] then [] else sha256 (c.1 ++ challenge)) :: lc.sent }

def handleLoginFromUi (password : Bytes) (remember : Bool) : LoginConfigHandler :=
  let c := if password = [] then orConfig lc.config (lc.password, lc.passwordSource)
    else (hashed sha256 password lc.salt, .undefined)
  { lc with
    password := c.1, passwordSource := c.2
    remember := if password = [] then lc.remember else remember
    sent := sha256 (c.1 ++ lc.challenge) :: lc.sent }

/-- An empty or a wrong password. -/
def handleLoginError : LoginConfigHandler := { lc with password := [] }

/-- The configuration that `handle_peer_info` stores. -/
def handlePeerInfo : Bytes :=
  if lc.remember then
    if lc.password ≠ [] ∧ lc.password ≠ lc.loaded ∧
        lc.passwordSource.isSharedAb sha256 lc.password lc.salt = false then lc.password
    else lc.loaded
  else if lc.passwordSource.isPersonalAb lc.password then lc.password
  else if lc.loaded ≠ [] then []
  else lc.loaded

/-- What goes to the personal address book then. -/
def synced (config : Bytes) : Option Bytes :=
  if config ≠ [] ∧ lc.passwordSource.isSharedAb sha256 lc.password lc.salt = false ∧
      lc.passwordSource.isPersonalAb lc.password = false then some config
  else none

end LoginConfigHandler

/-! ### The sessions with a peer -/

/-- `own` has the hashes of what the user typed, or gave as the preset of a session, and those of the personal
address book, besides what was stored at first. -/
structure State where
  stored : Bytes := []
  sessions : Nat → LoginConfigHandler := fun _ => {}
  tokens : List ConnToken := []
  synced : List Bytes := []
  own : List Bytes := []

inductive Event
  | initializeConfig (i : Nat) (sharedPassword : Option Bytes) (token : Option Nat) (switchUuid : Bool)
  | getConnToken (i : Nat)
  | hash (i : Nat) (salt challenge preset : Bytes) (personalAb : Option Bytes) (default_ : Bytes)
      (trusted : Bool)
  | loginFromUi (i : Nat) (password : Bytes) (remember : Bool)
  | loginError (i : Nat)
  | loadConfig (i : Nat)
  | peerInfo (i : Nat)

namespace State

variable (s : State)

def set (i : Nat) (lc : LoginConfigHandler) : State := { s with sessions := Function.update s.sessions i lc }

def ownOf : Event → List Bytes
  | .hash _ salt _ preset personalAb _ _ =>
    (if preset = [] then [] else [hashed sha256 preset salt]) ++ personalAb.toList
  | .loginFromUi i password _ =>
    if password = [] then [] else [hashed sha256 password (s.sessions i).salt]
  | _ => []

def act : Event → State
  | .initializeConfig i sharedPassword token switchUuid =>
    s.set i (.initializeConfig s.stored sharedPassword (token.bind (s.tokens[·]?)) switchUuid)
  | .getConnToken i => { s with tokens := s.tokens ++ (s.sessions i).getConnToken.toList }
  | .hash i salt challenge preset personalAb default_ trusted =>
    s.set i ((s.sessions i).handleHash sha256 salt challenge preset personalAb default_ trusted)
  | .loginFromUi i password remember => s.set i ((s.sessions i).handleLoginFromUi sha256 password remember)
  | .loginError i => s.set i (s.sessions i).handleLoginError
  | .loadConfig i => s.set i { s.sessions i with loaded := s.stored }
  | .peerInfo i =>
    let config := (s.sessions i).handlePeerInfo sha256
    { s.set i { s.sessions i with config } with
      stored := config
      synced := s.synced ++ ((s.sessions i).synced sha256 config).toList }

end State

def State.step (s : State) (e : Event) : State :=
  { s.act sha256 e with own := s.own ++ s.ownOf sha256 e }

/-! ### What is kept -/

/-- The peer keeps its salt, a session that switches sides has no token, and a login is answered after
the salt was sent. -/
def SameSalt (salt : Bytes) (s : State) : Event → Prop
  | .initializeConfig _ _ token switchUuid => switchUuid = true → token = none
  | .hash _ salt' _ _ _ _ _ => salt' = salt
  | .peerInfo i => (s.sessions i).salt = salt
  | _ => True

/-- What is kept for the peer, or goes to the personal address book, is of the user's own. -/
def OwnOnly (s : State) : Prop := ∀ hash, hash = s.stored ∨ hash ∈ s.synced → hash = [] ∨ hash ∈ s.own

/-- A password of the user's own, or one that is marked as shared. -/
def Marked (own : List Bytes) (salt : Bytes) (c : Choice) : Prop :=
  (c.1 = [] ∨ c.1 ∈ own) ∨ ∃ p, c = (hashed sha256 p salt, .sharedAb p)

structure LoginConfigHandler.Kept (own : List Bytes) (salt : Bytes) (lc : LoginConfigHandler) : Prop where
  password : Marked sha256 own salt (lc.password, lc.passwordSource)
  config : lc.config = [] ∨ lc.config ∈ own
  loaded : lc.loaded = [] ∨ lc.loaded ∈ own
  switching : lc.switchUuid = true → lc.password = [] ∨ lc.password ∈ own

structure State.Kept (salt : Bytes) (s : State) : Prop where
  stored : s.stored = [] ∨ s.stored ∈ s.own
  synced : ∀ hash ∈ s.synced, hash = [] ∨ hash ∈ s.own
  sessions : ∀ i, (s.sessions i).Kept sha256 s.own salt
  tokens : ∀ t ∈ s.tokens, Marked sha256 s.own salt (t.password, t.passwordSource)

section

variable {sha256 : Bytes → Bytes} {own own' : List Bytes} {salt : Bytes} {c : Choice} {lc : LoginConfigHandler}
  {s : State}

theorem Marked.mono (h : Marked sha256 own salt c) (hown : own ⊆ own') : Marked sha256 own' salt c :=
  h.imp_left fun h => h.imp_right fun h => hown h

theorem LoginConfigHandler.Kept.mono (h : lc.Kept sha256 own salt) (hown : own ⊆ own') :
    lc.Kept sha256 own' salt :=
  ⟨h.password.mono hown, h.config.imp_right fun h => hown h, h.loaded.imp_right fun h => hown h,
    fun hswitch => (h.switching hswitch).imp_right fun h => hown h⟩

theorem marked_own {hash : Bytes} {source : PasswordSource} (h : hash = [] ∨ hash ∈ own) :
    Marked sha256 own salt (hash, source) := Or.inl h

/-! The steps of the choice. -/

theorem marked_orPreset {preset : Bytes} (h : Marked sha256 own salt c)
    (hown : preset ≠ [] → hashed sha256 preset salt ∈ own) :
    Marked sha256 own salt (orPreset sha256 preset salt c) := by
  unfold orPreset
  split_ifs with hpreset
  · exact marked_own (Or.inr (hown hpreset.2))
  · exact h

theorem marked_orShared (shared : Option Bytes) (h : Marked sha256 own salt c) :
    Marked sha256 own salt (orShared sha256 shared salt c) := by
  unfold orShared
  cases shared with
  | none => exact h
  | some p =>
    dsimp only
    by_cases hp : p ≠ []
    · rw [if_pos hp]
      exact Or.inr ⟨p, rfl⟩
    · rw [if_neg hp]
      exact h

theorem marked_orConfig {config : Bytes} (h : Marked sha256 own salt c) (hconfig : config = [] ∨ config ∈ own) :
    Marked sha256 own salt (orConfig config c) := by
  unfold orConfig
  by_cases hc : c.1 = []
  · rw [if_pos hc]
    exact marked_own hconfig
  · rw [if_neg hc]
    exact h

theorem marked_orPersonalAb {personalAb : Option Bytes} (h : Marked sha256 own salt c)
    (hown : ∀ hash ∈ personalAb, hash ∈ own) : Marked sha256 own salt (orPersonalAb personalAb c) := by
  unfold orPersonalAb
  split
  · split_ifs
    · exact marked_own (Or.inr (hown _ rfl))
    · exact h
  · exact h

theorem marked_orDefault (default_ : Bytes) (h : Marked sha256 own salt c) :
    Marked sha256 own salt (orDefault sha256 default_ salt c) := by
  unfold orDefault
  split_ifs
  · exact Or.inr ⟨_, rfl⟩
  · exact h

/-- A marked password that is not empty is recognized with the same salt. -/
theorem own_of_not_shared (h : Marked sha256 own lc.salt (lc.password, lc.passwordSource))
    (hshared : lc.passwordSource.isSharedAb sha256 lc.password lc.salt = false) :
    lc.password = [] ∨ lc.password ∈ own := by
  rcases h with h | ⟨p, hp⟩
  · exact h
  · left
    obtain ⟨hpassword, hsource⟩ := Prod.mk.inj hp
    rw [hsource, hpassword] at hshared
    rw [hpassword]
    simpa [PasswordSource.isSharedAb] using hshared

theorem own_of_personal (h : Marked sha256 own salt (lc.password, lc.passwordSource))
    (hpersonal : lc.passwordSource.isPersonalAb lc.password = true) :
    lc.password = [] ∨ lc.password ∈ own := by
  rcases h with h | ⟨p, hp⟩
  · exact h
  · rw [(Prod.mk.inj hp).2] at hpersonal
    cases hpersonal

/-! The handlers. -/

namespace LoginConfigHandler.Kept

theorem initializeConfig {config : Bytes} {token : Option ConnToken} {switchUuid : Bool}
    (sharedPassword : Option Bytes) (hconfig : config = [] ∨ config ∈ own)
    (htoken : ∀ t ∈ token, Marked sha256 own salt (t.password, t.passwordSource))
    (hswitch : switchUuid = true → token = none) :
    (LoginConfigHandler.initializeConfig config sharedPassword token switchUuid).Kept sha256 own salt where
  password := by
    cases token with
    | none => exact marked_own (Or.inl rfl)
    | some t => exact htoken t rfl
  config := hconfig
  loaded := Or.inl rfl
  switching := fun h => Or.inl (by rw [hswitch h]; rfl)

theorem handleHash (h : lc.Kept sha256 own salt) (challenge : Bytes) {preset default_ : Bytes}
    {personalAb : Option Bytes} (trusted : Bool) (hpreset : preset ≠ [] → hashed sha256 preset salt ∈ own)
    (hpersonal : ∀ hash ∈ personalAb, hash ∈ own) :
    (lc.handleHash sha256 salt challenge preset personalAb default_ trusted).Kept sha256 own salt := by
  unfold LoginConfigHandler.handleHash
  dsimp only
  by_cases hswitched : (lc.switchUuid && trusted) = true
  · rw [if_pos hswitched]
    rw [Bool.and_eq_true] at hswitched
    exact ⟨marked_own (h.switching hswitched.1), h.config, h.loaded, fun hfalse => by cases hfalse⟩
  · rw [if_neg hswitched]
    refine ⟨?_, h.config, h.loaded, fun hfalse => by cases hfalse⟩
    exact marked_orDefault _ (marked_orPersonalAb (marked_orConfig (marked_orShared _
      (marked_orPreset h.password hpreset)) h.config) hpersonal)

theorem handleLoginFromUi (h : lc.Kept sha256 own salt) {password : Bytes} (remember : Bool)
    (hown : password ≠ [] → hashed sha256 password lc.salt ∈ own) :
    (lc.handleLoginFromUi sha256 password remember).Kept sha256 own salt := by
  unfold LoginConfigHandler.handleLoginFromUi
  dsimp only
  by_cases hempty : password = []
  · simp only [if_pos hempty]
    refine ⟨marked_orConfig h.password h.config, h.config, h.loaded, fun hswitch => ?_⟩
    unfold orConfig
    by_cases hnone : lc.password = []
    · rw [if_pos hnone]
      exact h.config
    · rw [if_neg hnone]
      exact h.switching hswitch
  · simp only [if_neg hempty]
    exact ⟨marked_own (Or.inr (hown hempty)), h.config, h.loaded, fun _ => Or.inr (hown hempty)⟩

theorem handleLoginError (h : lc.Kept sha256 own salt) : lc.handleLoginError.Kept sha256 own salt :=
  ⟨marked_own (Or.inl rfl), h.config, h.loaded, fun _ => Or.inl rfl⟩

theorem handlePeerInfo (h : lc.Kept sha256 own salt) (hsalt : lc.salt = salt) :
    lc.handlePeerInfo sha256 = [] ∨ lc.handlePeerInfo sha256 ∈ own := by
  subst hsalt
  unfold LoginConfigHandler.handlePeerInfo
  split_ifs with _ hkeep hpersonal
  · exact own_of_not_shared h.password hkeep.2.2
  · exact h.loaded
  · exact own_of_personal h.password hpersonal
  · exact Or.inl rfl
  · exact h.loaded

end LoginConfigHandler.Kept

namespace State.Kept

theorem more (h : s.Kept sha256 salt) (hashes : List Bytes) :
    State.Kept sha256 salt { s with own := s.own ++ hashes } where
  stored := h.stored.imp_right fun h => List.mem_append_left _ h
  synced := fun hash hmem => (h.synced hash hmem).imp_right fun h => List.mem_append_left _ h
  sessions := fun i => (h.sessions i).mono (List.subset_append_left _ _)
  tokens := fun t ht => (h.tokens t ht).mono (List.subset_append_left _ _)

theorem set (h : s.Kept sha256 salt) (i : Nat) {lc : LoginConfigHandler} (hlc : lc.Kept sha256 s.own salt) :
    (s.set i lc).Kept sha256 salt where
  stored := h.stored
  synced := h.synced
  sessions := fun j => by
    unfold State.set
    by_cases hj : j = i
    · rw [hj]
      simpa using hlc
    · simpa [Function.update_of_ne hj] using h.sessions j
  tokens := h.tokens

theorem act (h : s.Kept sha256 salt) {e : Event} (hsalt : SameSalt salt s e)
    (hown : ∀ hash ∈ s.ownOf sha256 e, hash ∈ s.own) : (s.act sha256 e).Kept sha256 salt := by
  cases e with
  | initializeConfig i sharedPassword token switchUuid =>
    refine h.set i (LoginConfigHandler.Kept.initializeConfig _ h.stored (fun t ht => ?_) fun hswitch => ?_)
    · obtain ⟨k, -, hk⟩ := Option.bind_eq_some_iff.mp ht
      exact h.tokens t (List.mem_of_getElem? hk)
    · rw [hsalt hswitch]
      rfl
  | getConnToken i =>
    refine ⟨h.stored, h.synced, h.sessions, fun t ht => ?_⟩
    rcases List.mem_append.mp ht with ht | ht
    · exact h.tokens t ht
    · rw [Option.mem_toList] at ht
      unfold LoginConfigHandler.getConnToken at ht
      split_ifs at ht
      obtain rfl := Option.some.inj ht
      exact (h.sessions i).password
  | hash i salt' challenge preset personalAb default_ trusted =>
    obtain rfl : salt' = salt := hsalt
    refine h.set i ((h.sessions i).handleHash challenge trusted (fun hpreset => hown _ ?_) fun hash hmem => hown _ ?_)
    · rw [State.ownOf, if_neg hpreset]
      exact List.mem_append_left _ (List.mem_singleton_self _)
    · exact List.mem_append_right _ (Option.mem_toList.mpr hmem)
  | loginFromUi i password remember =>
    refine h.set i ((h.sessions i).handleLoginFromUi remember fun hpassword => hown _ ?_)
    rw [State.ownOf, if_neg hpassword]
    exact List.mem_singleton_self _
  | loginError i => exact h.set i (h.sessions i).handleLoginError
  | loadConfig i =>
    have hi := h.sessions i
    exact h.set i ⟨hi.password, hi.config, h.stored, hi.switching⟩
  | peerInfo i =>
    have hi := h.sessions i
    have hconfig := hi.handlePeerInfo hsalt
    have hstores : LoginConfigHandler.Kept sha256 s.own salt
        { s.sessions i with config := (s.sessions i).handlePeerInfo sha256 } :=
      ⟨hi.password, hconfig, hi.loaded, hi.switching⟩
    have hset := h.set i hstores
    refine ⟨hconfig, fun hash hmem => ?_, hset.sessions, h.tokens⟩
    rcases List.mem_append.mp hmem with hmem | hmem
    · exact h.synced hash hmem
    · rw [Option.mem_toList] at hmem
      unfold LoginConfigHandler.synced at hmem
      split_ifs at hmem
      obtain rfl := Option.some.inj hmem
      exact hconfig

theorem step (h : s.Kept sha256 salt) {e : Event} (hsalt : SameSalt salt s e) :
    (s.step sha256 e).Kept sha256 salt := by
  have hown : s.ownOf sha256 e = State.ownOf sha256 { s with own := s.own ++ s.ownOf sha256 e } e := by
    cases e <;> rfl
  have hact := (h.more (s.ownOf sha256 e)).act (e := e) (by cases e <;> exact hsalt) fun hash hmem =>
    List.mem_append_right _ (hown ▸ hmem)
  have heq : s.step sha256 e = State.act sha256 { s with own := s.own ++ s.ownOf sha256 e } e := by
    cases e <;> rfl
  rw [heq]
  exact hact

theorem ownOnly (h : s.Kept sha256 salt) : OwnOnly s := by
  rintro hash (rfl | hmem)
  · exact h.stored
  · exact h.synced hash hmem

theorem start (salt stored : Bytes) : State.Kept sha256 salt { stored, own := [stored] } where
  stored := Or.inr (List.mem_singleton_self _)
  synced := fun _ hmem => absurd hmem List.not_mem_nil
  sessions := fun _ => ⟨marked_own (Or.inl rfl), Or.inl rfl, Or.inl rfl, fun _ => Or.inl rfl⟩
  tokens := fun _ ht => absurd ht List.not_mem_nil

end State.Kept

end

/-- While a peer keeps its salt, no run of any sessions with it keeps a password of a shared address book:
what is kept, from the first stored hash on, is what the user typed, gave as a preset or has in a personal
one. -/
theorem shared_passwords_not_kept (salt stored : Bytes) (es : List Event)
    (hsalt : Guarded (State.step sha256) (SameSalt salt) { stored, own := [stored] } es) :
    Throughout (State.step sha256) OwnOnly { stored, own := [stored] } es :=
  History.throughout_imp (fun _ h => h.ownOnly)
    (History.throughout_of_guarded (fun _ _ h hsalt => h.step hsalt) (State.Kept.start salt stored) hsalt)

/-- The user remembers a session that began with a shared password, and types a password in another. -/
theorem shared_passwords_not_kept_two :
    Throughout (State.step fun bytes => 1 :: bytes) OwnOnly { stored := [9], own := [[9]] }
      [.initializeConfig 0 (some [5]) none false, .hash 0 [7] [8] [] none [] false, .loadConfig 0, .peerInfo 0,
        .getConnToken 0, .initializeConfig 1 none (some 0) false, .hash 1 [7] [3] [] none [] false,
        .loginFromUi 1 [4] true, .loadConfig 1, .peerInfo 1] :=
  shared_passwords_not_kept _ [7] [9] _
    ⟨fun _ => rfl, rfl, trivial, rfl, trivial, fun h => (by cases h), rfl, trivial, trivial, rfl, trivial⟩

end RustDesk.SharedPasswords
