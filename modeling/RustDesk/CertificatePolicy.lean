import RustDesk.History
import Mathlib.Logic.Function.Basic
import Mathlib.Data.List.TakeWhile

/-!
# When an invalid certificate is accepted

A TLS connection is first tried with verification. When that fails and the option
`allow-insecure-tls-fallback` is on, it is tried again without. What succeeded is cached
under the host and port of the URL, which `get_domain_and_port_from_url` cuts out of the
text: after the last `@`, up to the first `/` or `?`.

Three families of calls share the cache: the WebSocket connection, the HTTP clients and the
HTTPS proxy. A call in flight has made one attempt at a time, so other calls and changes of
the option come between its attempts.
-/

namespace RustDesk.Tls

abbrev Text := List Char

/-! ### URLs -/

/-- A URL by its parts. The user information is what stands before the last `@` of the
authority. -/
structure Url where
  scheme : Text
  userInfo : Option Text := none
  hostPort : Text
  path : Text := []
  query : Option Text := none
  fragment : Option Text := none
  scheme_plain : ':' ∉ scheme := by decide
  userInfo_plain : ∀ u ∈ userInfo, '/' ∉ u ∧ '?' ∉ u ∧ '#' ∉ u := by decide
  hostPort_plain : '/' ∉ hostPort ∧ '?' ∉ hostPort ∧ '#' ∉ hostPort ∧ '@' ∉ hostPort := by decide
  path_rooted : path = [] ∨ path.head? = some '/' := by decide
  path_plain : '?' ∉ path ∧ '#' ∉ path := by decide
  query_plain : ∀ q ∈ query, '#' ∉ q := by decide

namespace Url

/-- The text behind the authority. -/
def tail (u : Url) : Text :=
  u.path ++ (u.query.map ('?' :: ·)).getD [] ++ (u.fragment.map ('#' :: ·)).getD []

def text (u : Url) : Text :=
  u.scheme ++ "://".toList ++ (u.userInfo.map (· ++ ['@'])).getD [] ++ u.hostPort ++ u.tail

end Url

/-- `url.find("://")`, as the text behind it. -/
def afterScheme : Text → Option Text
  | [] => none
  | c :: rest => if "://".toList.isPrefixOf (c :: rest) then some (rest.drop 2) else afterScheme rest

/-- The text behind the last `@`, or all of it. -/
def afterLastAt (text : Text) : Text := (text.reverse.takeWhile (· ≠ '@')).reverse

def getDomainAndPortFromUrl (url : Text) : Text :=
  (afterLastAt ((afterScheme url).getD url)).takeWhile fun c => c ≠ '/' && c ≠ '?'

def isPlain (url : Text) : Bool :=
  "ws://".toList.isPrefixOf url || "http://".toList.isPrefixOf url

/-! ### The cache and the calls -/

inductive TlsType
  | plain
  | nativeTls
  | rustls
  deriving DecidableEq, Repr

inductive CallKind
  | webSocket
  | httpClient
  | httpClientAsync
  | httpsProxy
  deriving DecidableEq, Repr

/-- A call with the attempt it is making. -/
structure Call where
  kind : CallKind
  url : Url
  tlsType : TlsType
  isTlsTypeCached : Bool
  danger : Option Bool
  original : Option Bool

namespace Call

/-- The attempt accepts invalid certificates. -/
def accepts (c : Call) : Bool := c.tlsType ≠ .plain && c.danger.getD false

/-- The attempt verifies the certificate. -/
def verifies (c : Call) : Bool := c.tlsType ≠ .plain && !c.danger.getD false

/-- The match of `try_connect` and of `create_http_client_with_url_`. -/
def fallback (c : Call) : Option Call :=
  match c.tlsType, c.isTlsTypeCached, c.danger with
  | .rustls, _, none => some { c with danger := some true }
  | .rustls, false, some _ => some { c with tlsType := .nativeTls, danger := c.original }
  | .nativeTls, _, none => some { c with danger := some true }
  | _, _, _ => none

/-- `https_connect_rustls_wrap_danger`, and `https_connect_nativetls_wrap_danger`, which does
not try again. -/
def proxyFallback (c : Call) : Option Call :=
  match c.tlsType with
  | .rustls =>
    if c.danger.isNone then some { c with danger := some true }
    else if !c.isTlsTypeCached then some { c with tlsType := .nativeTls, danger := c.original }
    else none
  | _ => none

/-- The next attempt after an error. The blocking HTTP client looks at `is_request`. -/
def next (isRequest : Bool) (c : Call) : Option Call :=
  match c.kind with
  | .webSocket => c.fallback
  | .httpClient => if isRequest then c.fallback else none
  | .httpClientAsync => c.fallback
  | .httpsProxy => c.proxyFallback

/-- An HTTP client whose settings are all cached is handed out without a request. -/
def endsAtOnce (c : Call) : Bool :=
  match c.kind with
  | .webSocket => false
  | .httpClient => c.isTlsTypeCached && c.original.isSome
  | .httpClientAsync => c.isTlsTypeCached && c.original.isSome
  | .httpsProxy => false

end Call

/-- What an attempt comes to. A time limit ends the call. -/
inductive Outcome
  | ok
  | error (isRequest : Bool)
  | timeout
  deriving DecidableEq, Repr

/-- What was done. A call that begins notes the option, and the host and port for which the
decision that it found in the cache was stored. -/
inductive Entry
  | began (id : Nat) (url : Url) (option : Bool) (storedFor : Option Text)
  | attempt (id : Nat) (url : Url) (accepts : Bool)
  | failed (url : Url) (verified : Bool)
  | reset

/-- The two caches, with the host and port an entry was stored for. -/
structure Connections where
  option : Bool := false
  tlsTypes : Text → Option TlsType := fun _ => none
  dangers : Text → Option Bool := fun _ => none
  storedFor : Text → Option Text := fun _ => none
  calls : Nat → Option Call := fun _ => none
  log : List Entry := []

inductive Event
  | begin (id : Nat) (kind : CallKind) (url : Url)
  | outcome (id : Nat) (o : Outcome)
  | setOption (on : Bool)

namespace Connections

def upsertTlsCache (url : Url) (tlsType : TlsType) (danger : Bool) (s : Connections) : Connections :=
  if isPlain url.text then s
  else
    let key := getDomainAndPortFromUrl url.text
    { s with
      tlsTypes := Function.update s.tlsTypes key (some tlsType)
      dangers := Function.update s.dangers key (some danger)
      storedFor := Function.update s.storedFor key (some url.hostPort) }

def resetTlsCache (s : Connections) : Connections :=
  { s with tlsTypes := fun _ => none, dangers := fun _ => none, storedFor := fun _ => none }

def getCachedTlsType (url : Url) (s : Connections) : Option TlsType :=
  if isPlain url.text then some .plain else s.tlsTypes (getDomainAndPortFromUrl url.text)

def getCachedTlsAcceptInvalidCert (url : Url) (s : Connections) : Option Bool :=
  if !s.option then some false
  else if isPlain url.text then some false
  else s.dangers (getDomainAndPortFromUrl url.text)

/-- The call as it begins. -/
def newCall (kind : CallKind) (url : Url) (s : Connections) : Call :=
  { kind, url
    tlsType := (s.getCachedTlsType url).getD .rustls
    isTlsTypeCached := (s.getCachedTlsType url).isSome
    danger := s.getCachedTlsAcceptInvalidCert url
    original := s.getCachedTlsAcceptInvalidCert url }

def setCall (id : Nat) (c : Option Call) (s : Connections) : Connections :=
  { s with calls := Function.update s.calls id c }

def note (e : Entry) (s : Connections) : Connections := { s with log := e :: s.log }

def start (id : Nat) (kind : CallKind) (url : Url) (s : Connections) : Connections :=
  let c := s.newCall kind url
  let s := s.note (.began id url s.option
    (if isPlain url.text then none else s.storedFor (getDomainAndPortFromUrl url.text)))
  if kind = .httpsProxy ∧ c.tlsType = .plain then s
  else (s.note (.attempt id url c.accepts)).setCall id (if c.endsAtOnce then none else some c)

def finish (id : Nat) (c : Call) (o : Outcome) (s : Connections) : Connections :=
  match o with
  | .ok => (s.upsertTlsCache c.url c.tlsType (c.danger.getD false)).setCall id none
  | .timeout => s.setCall id none
  | .error isRequest =>
    let s := s.note (.failed c.url c.verifies)
    match c.next isRequest with
    | none => s.setCall id none
    | some c => (s.note (.attempt id c.url c.accepts)).setCall id (some c)

def step (s : Connections) : Event → Connections
  | .begin id kind url =>
    match s.calls id with
    | none => s.start id kind url
    | some _ => s
  | .outcome id o =>
    match s.calls id with
    | none => s
    | some c => s.finish id c o
  | .setOption on => ({ s with option := on }.resetTlsCache).note .reset

end Connections

/-! ### The policy -/

/-- The option when the call began. -/
def beganWith (id : Nat) : List Entry → Option Bool
  | [] => none
  | .began id' _ option _ :: log => if id' = id then some option else beganWith id log
  | .attempt .. :: log => beganWith id log
  | .failed .. :: log => beganWith id log
  | .reset :: log => beganWith id log

/-- An attempt with verification to the host and port has failed since the last reset. -/
def failedSince (hostPort : Text) : List Entry → Prop
  | [] => False
  | .began .. :: log => failedSince hostPort log
  | .attempt .. :: log => failedSince hostPort log
  | .failed url verified :: log =>
    (url.hostPort = hostPort ∧ verified = true) ∨ failedSince hostPort log
  | .reset :: _ => False

instance decidableFailedSince (hostPort : Text) : ∀ log, Decidable (failedSince hostPort log)
  | [] => .isFalse id
  | .began .. :: log => decidableFailedSince hostPort log
  | .attempt .. :: log => decidableFailedSince hostPort log
  | .failed url verified :: log =>
    have := decidableFailedSince hostPort log
    inferInstanceAs (Decidable ((url.hostPort = hostPort ∧ verified = true) ∨ _))
  | .reset :: _ => .isFalse id

/-- What has to hold of an entry with those before it. -/
def Entitled : Entry → List Entry → Prop
  | .began _ url _ (some hostPort), _ => hostPort = url.hostPort
  | .attempt id url true, before =>
    beganWith id before = some true ∧ failedSince url.hostPort before
  | _, _ => True

def Policy (s : Connections) : Prop := History.Always Entitled s.log

/-- The URL of a call that begins has no `@` behind its authority, and the option is not
changed while an attempt that accepts invalid certificates is under way. -/
def Safe (s : Connections) : Event → Prop
  | .begin _ _ url => '@' ∉ url.tail
  | .outcome .. => True
  | .setOption _ => ∀ id c, s.calls id = some c → c.danger ≠ some true

/-! ### What the key of a URL says -/

theorem afterScheme_append {scheme : Text} (h : ':' ∉ scheme) (rest : Text) :
    afterScheme (scheme ++ "://".toList ++ rest) = some rest := by
  induction scheme with
  | nil => rfl
  | cons c scheme ih =>
    obtain ⟨hc, hscheme⟩ := not_or.mp (fun hm => h (List.mem_cons.mpr hm))
    have hno : "://".toList.isPrefixOf (c :: (scheme ++ "://".toList ++ rest)) = false := by
      have hne : (':' == c) = false := beq_eq_false_iff_ne.mpr hc
      change ((':' == c) && _) = false
      rw [hne]
      rfl
    have hstep : afterScheme (c :: scheme ++ "://".toList ++ rest) =
        afterScheme (scheme ++ "://".toList ++ rest) := by
      change (if "://".toList.isPrefixOf (c :: (scheme ++ "://".toList ++ rest)) then _ else _) = _
      rw [hno]
      rfl
    rw [hstep]
    exact ih hscheme

theorem takeWhile_of_notMem {c : Char} {l : Text} (h : c ∉ l) : l.takeWhile (· ≠ c) = l :=
  List.takeWhile_eq_self_iff.mpr fun _ hx => decide_eq_true fun hxc => h (hxc ▸ hx)

theorem afterLastAt_of_notMem {l : Text} (h : '@' ∉ l) : afterLastAt l = l := by
  unfold afterLastAt
  rw [takeWhile_of_notMem (fun hm => h (List.mem_reverse.mp hm)), List.reverse_reverse]

theorem afterLastAt_append {l : Text} (h : '@' ∉ l) (before : Text) :
    afterLastAt (before ++ ['@'] ++ l) = l := by
  have hrev : (before ++ ['@'] ++ l).reverse = l.reverse ++ '@' :: before.reverse := by simp
  have hall : ∀ x ∈ l.reverse, decide (x ≠ '@') = true := fun x hx =>
    decide_eq_true fun hxc => h (hxc ▸ List.mem_reverse.mp hx)
  unfold afterLastAt
  rw [hrev, List.takeWhile_append_of_pos hall]
  simp

/-- Behind the authority the key ends, unless a fragment follows at once. -/
theorem takeWhile_tail (u : Url) :
    (u.tail.takeWhile fun c => c ≠ '/' && c ≠ '?') = [] ∨
      (u.tail.takeWhile fun c => c ≠ '/' && c ≠ '?').head? = some '#' := by
  unfold Url.tail
  rcases u.path_rooted with hpath | hpath
  · rw [hpath]
    cases u.query with
    | some q => exact .inl rfl
    | none =>
      cases u.fragment with
      | none => exact .inl rfl
      | some f => exact .inr rfl
  · obtain ⟨path, hcons⟩ : ∃ path, u.path = '/' :: path := by
      cases hp : u.path with
      | nil =>
        rw [hp] at hpath
        cases hpath
      | cons c path =>
        rw [hp] at hpath
        cases hpath
        exact ⟨path, rfl⟩
    rw [hcons]
    exact .inl rfl

/-- The key of a URL without an `@` behind its authority determines the host and port. -/
theorem hostPort_of_key (u : Url) (h : '@' ∉ u.tail) :
    (getDomainAndPortFromUrl u.text).takeWhile (· ≠ '#') = u.hostPort := by
  obtain ⟨hslash, hquestion, hhash, hat⟩ := u.hostPort_plain
  have hrest : '@' ∉ u.hostPort ++ u.tail := fun hm =>
    (List.mem_append.mp hm).elim hat h
  have hscheme : afterScheme u.text =
      some ((u.userInfo.map (· ++ ['@'])).getD [] ++ u.hostPort ++ u.tail) := by
    unfold Url.text
    rw [List.append_assoc, List.append_assoc, ← List.append_assoc _ u.hostPort]
    exact afterScheme_append u.scheme_plain _
  have hafter : afterLastAt ((u.userInfo.map (· ++ ['@'])).getD [] ++ u.hostPort ++ u.tail) =
      u.hostPort ++ u.tail := by
    rw [List.append_assoc]
    cases u.userInfo with
    | none => exact afterLastAt_of_notMem hrest
    | some user => exact afterLastAt_append hrest user
  have hall : ∀ x ∈ u.hostPort, (decide (x ≠ '/') && decide (x ≠ '?')) = true := by
    intro x hx
    rw [Bool.and_eq_true, decide_eq_true_iff, decide_eq_true_iff]
    exact ⟨fun hxc => hslash (hxc ▸ hx), fun hxc => hquestion (hxc ▸ hx)⟩
  unfold getDomainAndPortFromUrl
  rw [hscheme, Option.getD_some, hafter, List.takeWhile_append_of_pos hall]
  have hpos : ∀ x ∈ u.hostPort, decide (x ≠ '#') = true := fun x hx =>
    decide_eq_true fun hxc => hhash (hxc ▸ hx)
  rw [List.takeWhile_append_of_pos hpos]
  rcases takeWhile_tail u with hnil | hhead
  · rw [hnil]
    simp
  · generalize (u.tail.takeWhile fun c => c ≠ '/' && c ≠ '?') = rest at hhead ⊢
    cases rest with
    | nil => cases hhead
    | cons c rest =>
      cases hhead
      simp

theorem hostPort_eq_of_key {u v : Url} (hu : '@' ∉ u.tail) (hv : '@' ∉ v.tail)
    (h : getDomainAndPortFromUrl u.text = getDomainAndPortFromUrl v.text) :
    u.hostPort = v.hostPort := by
  rw [← hostPort_of_key u hu, ← hostPort_of_key v hv, h]

/-! ### Attempts of a call -/

/-- What follows an attempt that fails. After one with verification comes one without, and
after that the other library with what was decided when the call began. -/
structure Follows (c c' : Call) : Prop where
  url : c'.url = c.url
  original : c'.original = c.original
  danger : c.danger = none ∧ c.tlsType ≠ .plain ∧ c'.danger = some true ∨
    c.danger ≠ none ∧ c'.danger = c.original

theorem fallback_follows {c c' : Call} (h : c.fallback = some c') : Follows c c' := by
  unfold Call.fallback at h
  split at h
  · rename_i ht hd
    cases h
    exact ⟨rfl, rfl, .inl ⟨hd, by simp [ht], rfl⟩⟩
  · rename_i danger ht hcached hd
    cases h
    exact ⟨rfl, rfl, .inr ⟨by simp [hd], rfl⟩⟩
  · rename_i ht hd
    cases h
    exact ⟨rfl, rfl, .inl ⟨hd, by simp [ht], rfl⟩⟩
  · cases h

theorem proxyFallback_follows {c c' : Call} (h : c.proxyFallback = some c') : Follows c c' := by
  unfold Call.proxyFallback at h
  split at h
  · rename_i ht
    split at h
    · rename_i hd
      cases h
      exact ⟨rfl, rfl, .inl ⟨Option.isNone_iff_eq_none.mp hd, by simp [ht], rfl⟩⟩
    · rename_i hd
      split at h
      · cases h
        exact ⟨rfl, rfl, .inr ⟨fun hn => hd (Option.isNone_iff_eq_none.mpr hn), rfl⟩⟩
      · cases h
  · cases h

theorem next_follows {c c' : Call} {isRequest : Bool} (h : c.next isRequest = some c') :
    Follows c c' := by
  unfold Call.next at h
  split at h
  · exact fallback_follows h
  · split at h
    · exact fallback_follows h
    · cases h
  · exact fallback_follows h
  · exact proxyFallback_follows h

theorem danger_of_accepts {c : Call} (h : c.accepts = true) : c.danger = some true := by
  unfold Call.accepts at h
  rcases hd : c.danger with _ | d
  · simp [hd] at h
  · simpa [hd] using (Bool.and_eq_true_iff.mp h).2

/-! ### The invariant -/

/-- What backs a call in flight. -/
structure Backed (id : Nat) (c : Call) (log : List Entry) : Prop where
  url : '@' ∉ c.url.tail
  option : c.original ≠ some false → beganWith id log = some true
  kept : c.original = some false → c.danger = some false
  again : c.original = some true → c.danger = some true
  failed : c.danger = some true → failedSince c.url.hostPort log

structure Inv (s : Connections) : Prop where
  policy : Policy s
  stored : ∀ key hostPort, s.storedFor key = some hostPort →
    ∃ u : Url, '@' ∉ u.tail ∧ getDomainAndPortFromUrl u.text = key ∧ u.hostPort = hostPort
  cached : ∀ key, s.dangers key = some true →
    ∃ hostPort, s.storedFor key = some hostPort ∧ failedSince hostPort s.log
  inFlight : ∀ id c, s.calls id = some c → Backed id c s.log

def Entry.conn : Entry → Option Nat
  | .began id .. => some id
  | _ => none

theorem failedSince_cons {hostPort : Text} {e : Entry} {log : List Entry} (he : e ≠ .reset)
    (h : failedSince hostPort log) : failedSince hostPort (e :: log) := by
  cases e with
  | began => exact h
  | attempt => exact h
  | failed => exact .inr h
  | reset => exact absurd rfl he

theorem beganWith_cons {id : Nat} {e : Entry} {log : List Entry} (he : e.conn ≠ some id) :
    beganWith id (e :: log) = beganWith id log := by
  cases e with
  | began id' url option storedFor => exact if_neg fun h => he (by rw [← h]; rfl)
  | attempt => rfl
  | failed => rfl
  | reset => rfl

theorem Backed.cons {id : Nat} {c : Call} {log : List Entry} {e : Entry} (h : Backed id c log)
    (he : e ≠ .reset) (hid : e.conn ≠ some id) : Backed id c (e :: log) where
  url := h.url
  option ho := by
    rw [beganWith_cons hid]
    exact h.option ho
  kept := h.kept
  again := h.again
  failed hd := failedSince_cons he (h.failed hd)

theorem Backed.entitled {id : Nat} {c : Call} {log : List Entry} (h : Backed id c log) :
    Entitled (.attempt id c.url c.accepts) log := by
  cases ha : c.accepts with
  | false => trivial
  | true =>
    have hd := danger_of_accepts ha
    refine ⟨h.option fun hfalse => ?_, h.failed hd⟩
    rw [h.kept hfalse] at hd
    cases hd

theorem Backed.follows {id : Nat} {c c' : Call} {log : List Entry} (h : Backed id c log)
    (hf : Follows c c') : Backed id c' (.failed c.url c.verifies :: log) := by
  have h₁ : Backed id c (.failed c.url c.verifies :: log) := h.cons (by simp) (by simp [Entry.conn])
  refine ⟨by rw [hf.url]; exact h.url, fun ho => ?_, fun ho => ?_, fun ho => ?_, fun hd => ?_⟩
  · rw [hf.original] at ho
    exact h₁.option ho
  · rw [hf.original] at ho
    rcases hf.danger with ⟨hdanger, -, -⟩ | ⟨-, hsame⟩
    · rw [h.kept ho] at hdanger
      cases hdanger
    · exact hsame.trans ho
  · rw [hf.original] at ho
    rcases hf.danger with ⟨-, -, htrue⟩ | ⟨-, hsame⟩
    · exact htrue
    · exact hsame.trans ho
  · rw [hf.url]
    rcases hf.danger with ⟨hdanger, htls, -⟩ | ⟨-, hsame⟩
    · exact .inl ⟨rfl, by simp [Call.verifies, hdanger, htls]⟩
    · exact h₁.failed (h.again (hsame.symm.trans hd))

/-- An entry that is entitled, and that no call in flight begins with. -/
theorem Inv.note {s : Connections} (h : Inv s) {e : Entry} (he : e ≠ .reset)
    (hconn : ∀ id, e.conn = some id → s.calls id = none) (hok : Entitled e s.log) :
    Inv (s.note e) where
  policy := ⟨hok, h.policy⟩
  stored := h.stored
  cached key hkey := by
    obtain ⟨hostPort, hstored, hfailed⟩ := h.cached key hkey
    exact ⟨hostPort, hstored, failedSince_cons he hfailed⟩
  inFlight id c hc := by
    refine (h.inFlight id c hc).cons he fun hid => ?_
    have hnone : s.calls id = none := hconn id hid
    have hsome : s.calls id = some c := hc
    rw [hnone] at hsome
    cases hsome

theorem Inv.setCall {s : Connections} (h : Inv s) {id : Nat} {c : Option Call}
    (hc : ∀ c', c = some c' → Backed id c' s.log) : Inv (s.setCall id c) where
  policy := h.policy
  stored := h.stored
  cached := h.cached
  inFlight x c' hx := by
    by_cases hxid : x = id
    · subst hxid
      exact hc c' (by simpa [Connections.setCall] using hx)
    · exact h.inFlight x c' (by simpa [Connections.setCall, Function.update_of_ne hxid] using hx)

/-- A call makes an attempt that is backed, and stays in flight or is let go. -/
theorem Inv.attempt {s : Connections} (h : Inv s) {id : Nat} {c : Call} (hb : Backed id c s.log)
    {next : Option Call} (hnext : ∀ c', next = some c' → c' = c) :
    Inv ((s.note (.attempt id c.url c.accepts)).setCall id next) := by
  apply Inv.setCall
  · exact h.note (by simp) (fun x hx => by cases hx) hb.entitled
  · intro c' hc'
    rw [hnext c' hc']
    exact hb.cons (by simp) (by simp [Entry.conn])

theorem Inv.upsert {s : Connections} (h : Inv s) {url : Url} {tlsType : TlsType} {danger : Bool}
    (hurl : '@' ∉ url.tail) (hfailed : danger = true → failedSince url.hostPort s.log) :
    Inv (s.upsertTlsCache url tlsType danger) := by
  unfold Connections.upsertTlsCache
  split
  · exact h
  · refine ⟨h.policy, fun key hostPort hstored => ?_, fun key hdanger => ?_, h.inFlight⟩
    · dsimp only at hstored
      by_cases hkey : key = getDomainAndPortFromUrl url.text
      · subst hkey
        rw [Function.update_self] at hstored
        cases hstored
        exact ⟨url, hurl, rfl, rfl⟩
      · rw [Function.update_of_ne hkey] at hstored
        exact h.stored key hostPort hstored
    · dsimp only at hdanger ⊢
      by_cases hkey : key = getDomainAndPortFromUrl url.text
      · subst hkey
        rw [Function.update_self] at hdanger ⊢
        cases hdanger
        exact ⟨url.hostPort, rfl, hfailed rfl⟩
      · rw [Function.update_of_ne hkey] at hdanger ⊢
        exact h.cached key hdanger

/-! ### Steps -/

/-- A cached decision was stored for the host and port of the URL that finds it. -/
theorem Inv.storedFor_eq {s : Connections} (h : Inv s) {url : Url} (hurl : '@' ∉ url.tail)
    {hostPort : Text} (hs : s.storedFor (getDomainAndPortFromUrl url.text) = some hostPort) :
    hostPort = url.hostPort := by
  obtain ⟨u, hu, hkey, rfl⟩ := h.stored _ _ hs
  exact hostPort_eq_of_key hu hurl hkey

/-- A call that begins without verification has a failed attempt behind it. -/
theorem Inv.failed_of_cached {s : Connections} (h : Inv s) {url : Url} (hurl : '@' ∉ url.tail)
    (hd : s.getCachedTlsAcceptInvalidCert url = some true) : failedSince url.hostPort s.log := by
  unfold Connections.getCachedTlsAcceptInvalidCert at hd
  split at hd
  · cases hd
  split at hd
  · cases hd
  · obtain ⟨hostPort, hstored, hfailed⟩ := h.cached _ hd
    rwa [h.storedFor_eq hurl hstored] at hfailed

theorem option_of_cached {s : Connections} {url : Url}
    (hd : s.getCachedTlsAcceptInvalidCert url ≠ some false) : s.option = true := by
  unfold Connections.getCachedTlsAcceptInvalidCert at hd
  by_contra hoff
  rw [Bool.not_eq_true] at hoff
  rw [hoff] at hd
  exact hd rfl

theorem inv_start {s : Connections} (h : Inv s) {id : Nat} {kind : CallKind} {url : Url}
    (hnone : s.calls id = none) (hurl : '@' ∉ url.tail) : Inv (s.start id kind url) := by
  unfold Connections.start
  extract_lets c s₁
  have hs₁ : Inv s₁ := by
    refine h.note (by simp) (fun x hx => ?_) ?_
    · cases hx
      exact hnone
    · generalize hst : (if isPlain url.text then none
        else s.storedFor (getDomainAndPortFromUrl url.text)) = stored
      cases stored with
      | none => trivial
      | some hostPort =>
        split at hst
        · cases hst
        · exact h.storedFor_eq hurl hst
  have hback : Backed id c s₁.log := by
    refine ⟨hurl, fun ho => ?_, fun ho => ho, fun ho => ho, fun hd => ?_⟩
    · have hbegan : beganWith id s₁.log = some s.option := if_pos rfl
      rw [hbegan, option_of_cached ho]
    · exact failedSince_cons (by simp) (h.failed_of_cached hurl hd)
  split
  · exact hs₁
  · exact hs₁.attempt hback (fun c' hc' => by
      split at hc'
      · cases hc'
      · cases hc'
        rfl)

theorem inv_error {s : Connections} (h : Inv s) {id : Nat} {c : Call} (hc : s.calls id = some c)
    (isRequest : Bool) : Inv (s.finish id c (.error isRequest)) := by
  have hs₁ : Inv (s.note (.failed c.url c.verifies)) :=
    h.note (by simp) (fun x hx => by cases hx) trivial
  unfold Connections.finish
  dsimp only
  split
  · exact hs₁.setCall fun _ hx => by cases hx
  · rename_i c' hnext
    have hback : Backed id c' (s.note (.failed c.url c.verifies)).log :=
      (h.inFlight id c hc).follows (next_follows hnext)
    exact hs₁.attempt hback fun x hx => by
      cases hx
      rfl

theorem inv_finish {s : Connections} (h : Inv s) {id : Nat} {c : Call} (hc : s.calls id = some c)
    (o : Outcome) : Inv (s.finish id c o) := by
  have hback := h.inFlight id c hc
  cases o with
  | ok =>
    refine Inv.setCall (h.upsert hback.url fun hd => ?_) fun _ hx => by cases hx
    have hdanger : c.danger = some true := by
      rcases hc : c.danger with _ | d
      · simp [hc] at hd
      · simpa [hc] using hd
    exact hback.failed hdanger
  | error isRequest => exact inv_error h hc isRequest
  | timeout => exact h.setCall fun _ hx => by cases hx

/-- A reset forgets the failed attempts, so no attempt without verification may be under way. -/
theorem inv_setOption {s : Connections} (h : Inv s) (on : Bool)
    (hidle : ∀ id c, s.calls id = some c → c.danger ≠ some true) :
    Inv (s.step (.setOption on)) where
  policy := ⟨trivial, h.policy⟩
  stored key hostPort hs := by cases hs
  cached key hd := by cases hd
  inFlight id c hc := by
    have hback := h.inFlight id c hc
    exact ⟨hback.url, hback.option, hback.kept, hback.again,
      fun hd => absurd hd (hidle id c hc)⟩

theorem inv_step {s : Connections} {ev : Event} (h : Inv s) (hsafe : Safe s ev) :
    Inv (s.step ev) := by
  cases ev with
  | begin id kind url =>
    dsimp only [Connections.step]
    split
    · rename_i hnone
      exact inv_start h hnone hsafe
    · exact h
  | outcome id o =>
    dsimp only [Connections.step]
    split
    · exact h
    · rename_i c hc
      exact inv_finish h hc o
  | setOption on => exact inv_setOption h on hsafe

/-- In every run whose URLs have no `@` behind the authority, and in which the option is not
changed during an attempt without verification: an attempt that accepts invalid certificates
is made only by a call that began with the option on, after an attempt with verification to
the same host and port failed since the last reset, and a cached decision is used only for
the host and port it was stored for. -/
theorem policy_throughout (option : Bool) (evs : List Event)
    (hsafe : History.Guarded Connections.step Safe { option } evs) :
    History.Throughout Connections.step Policy { option } evs := by
  have hstart : Inv { option } := by
    refine ⟨trivial, fun key hostPort hs => ?_, fun key hd => ?_, fun id c hc => ?_⟩
    · cases hs
    · cases hd
    · cases hc
  have hinv : History.Throughout Connections.step Inv { option } evs :=
    History.throughout_of_guarded (fun s ev => inv_step) hstart hsafe
  exact History.throughout_imp (fun s h => h.policy) hinv

def selfSigned : Url where
  scheme := ['w', 's', 's']
  userInfo := some ['m', 'e']
  hostPort := ['n', 'a', 's', ':', '9']

/-- The option is switched on, a call falls back to an attempt without verification and
succeeds, and the next call to the host starts with what it cached. -/
def fallbackRun : List Event :=
  [.setOption true, .begin 0 .webSocket selfSigned, .outcome 0 (.error true), .outcome 0 .ok,
    .begin 1 .httpsProxy selfSigned]

theorem policy_fallbackRun :
    (Connections.newCall .httpsProxy selfSigned
        (History.run Connections.step { option := false } (fallbackRun.take 4))).accepts = true ∧
      History.Throughout Connections.step Policy { option := false } fallbackRun := by
  have hurl : '@' ∉ selfSigned.tail := by decide
  have hidle : Safe { option := false } (.setOption true) := fun id c hc => by cases hc
  exact ⟨by decide +kernel,
    policy_throughout false fallbackRun ⟨hidle, hurl, trivial, trivial, hurl, trivial⟩⟩

def hostileQuery : Url where
  scheme := ['w', 's', 's']
  hostPort := ['b', 'a', 'n', 'k']
  path := ['/']
  query := some ['@', 'n', 'a', 's', ':', '9']

/-- The host of the second call has never been tried, but its query ends in the key of the
first. -/
def otherHostRun : List Event :=
  [.begin 0 .webSocket selfSigned, .outcome 0 (.error true), .outcome 0 .ok,
    .begin 1 .webSocket hostileQuery]

theorem other_host_accepted :
    ¬ ∀ option evs, History.Throughout Connections.step Policy { option } evs := by
  intro h
  have hlast := History.throughout_last (h true otherHostRun)
  have hfailed : failedSince hostileQuery.hostPort
      (History.run Connections.step { option := true } otherHostRun).log := hlast.1.2
  exact absurd hfailed (by decide +kernel)

end RustDesk.Tls
