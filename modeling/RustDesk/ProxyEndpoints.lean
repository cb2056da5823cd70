import RustDesk.HostPort
import RustDesk.AddrMangle
import RustDesk.Base64
import RustDesk.SplitText
import RustDesk.Utf8Text

/-!
# Hosts and ports of a proxy

The address of a proxy is a URL, of which an `http` or `https` proxy keeps the host and the port
as one text. `get_domain`, `get_host_and_port` and `resolve_host` each split this text at a colon.
The request to the proxy names the target as a host, a colon and a port.

The URL has been parsed as its standard says: a domain has no character that is forbidden in one, an
IPv6 address is in brackets, and the port is left out where it is the default of the scheme. Text is
a list of characters.
-/

namespace RustDesk.Proxy

open HostPort (ipv4Text ipv6Text segmentsText zeroes splitOnPair hexDigits)

/-! ### URLs -/

/-- The code points that the standard of URLs forbids in a domain. -/
def forbiddenInDomain (c : Char) : Bool :=
  c.toNat ≤ 0x20 || c.toNat == 0x7F ||
    ['#', '/', ':', '<', '>', '?', '@', '[', '\\', ']', '^', '|', '%'].contains c

structure DomainName where
  text : List Char
  ne_nil : text ≠ []
  allowed : ∀ c ∈ text, forbiddenInDomain c = false

inductive Host
  | domain (name : DomainName)
  | ipv4 (ip : Vector UInt8 4)
  | ipv6 (ip : Vector UInt8 16)

def segments (ip : Vector UInt8 16) : Vector UInt16 8 :=
  Vector.ofFn fun i => (ip[2 * i.val].toUInt16 <<< 8) ||| ip[2 * i.val + 1].toUInt16

/-- An IPv6 address as a URL has it; unlike `Ipv6Addr` it writes no part of it as an IPv4 one. -/
def urlIpv6Text (segments : Vector UInt16 8) : List Char :=
  let s := segments.toList
  let span := zeroes s
  if span.len > 1 then
    segmentsText (s.take span.start) ++ ':' :: ':' :: segmentsText (s.drop (span.start + span.len))
  else segmentsText s

namespace Host

def isIpv6 : Host → Bool
  | .ipv6 _ => true
  | _ => false

/-- The host in a URL. -/
def serialize : Host → List Char
  | .domain name => name.text
  | .ipv4 ip => ipv4Text ip
  | .ipv6 ip => '[' :: urlIpv6Text (segments ip) ++ [']']

/-- The host as it is looked up. -/
def name : Host → List Char
  | .domain name => name.text
  | .ipv4 ip => ipv4Text ip
  | .ipv6 ip => urlIpv6Text (segments ip)

end Host

def showPort (port : UInt16) : List Char := Nat.toDigits 10 port.toNat

structure Url where
  scheme : String
  username : List Char := []
  password : Option (List Char) := none
  host : Host
  port : Option UInt16 := none

namespace Url

/-- `url[Position::BeforeHost..Position::AfterPort]` -/
def hostAndPort (url : Url) : List Char :=
  url.host.serialize ++ (url.port.map fun port => ':' :: showPort port).getD []

end Url

/-! ### The scheme of a proxy -/

inductive ProxyError (ε : Type)
  | ioError (e : ε)
  | urlBadScheme (scheme : String)
  | emptyHost
  | addressResolutionFailed (host : List Char)

structure Auth where
  userName : List Char
  password : List Char
  deriving DecidableEq, Repr

inductive ProxyScheme
  | http (auth : Option Auth) (host : List Char)
  | https (auth : Option Auth) (host : List Char)
  | socks5 (addr : SocketAddr) (auth : Option Auth) (remoteDns : Bool)
  deriving DecidableEq, Repr

/-- `str::split_once` -/
def splitOnce (sep : Char) (s : List Char) : Option (List Char × List Char) :=
  if sep ∈ s then some (s.takeWhile (· ≠ sep), (s.dropWhile (· ≠ sep)).tail) else none

/-- Decimal digits, within 16 bits. -/
def parsePort (s : List Char) : Option UInt16 :=
  if s.isEmpty || !s.all Char.isDigit then none
  else
    let n := Nat.ofDigitChars 10 s 0
    if n < 2 ^ 16 then some (UInt16.ofNat n) else none

/-- `str::parse::<u16>` -/
def parseU16 : List Char → Option UInt16
  | '+' :: ds => parsePort ds
  | ds => parsePort ds

namespace SocketAddr

/-- `SocketAddr` as it is printed. -/
def text : SocketAddr → List Char
  | .v4 ip port => ipv4Text ip ++ ':' :: showPort port
  | .v6 ip port _ scopeId =>
    let scope := if scopeId = 0 then [] else '%' :: Nat.toDigits 10 scopeId.toNat
    '[' :: ipv6Text (segments ip) ++ scope ++ ']' :: ':' :: showPort port

def ip : SocketAddr → List Char
  | .v4 ip _ => ipv4Text ip
  | .v6 ip _ _ _ => ipv6Text (segments ip)

def port : SocketAddr → UInt16
  | .v4 _ port => port
  | .v6 _ port _ _ => port

end SocketAddr

namespace ProxyScheme

variable {ε : Type}

def maybeAuth : ProxyScheme → Option Auth
  | .http auth _ => auth
  | .https auth _ => auth
  | .socks5 _ auth _ => auth

def setBasicAuth (username password : List Char) : ProxyScheme → ProxyScheme
  | .http _ host => .http (some ⟨username, password⟩) host
  | .https _ host => .https (some ⟨username, password⟩) host
  | .socks5 addr _ remoteDns => .socks5 addr (some ⟨username, password⟩) remoteDns

/-- `toAddrs` is what `url.socket_addrs` gives for a SOCKS proxy. -/
def parse (toAddrs : Except (ProxyError ε) (List SocketAddr)) (url : Url) :
    Except (ProxyError ε) ProxyScheme := do
  let scheme ←
    if url.scheme = "http" then pure (.http none url.hostAndPort)
    else if url.scheme = "https" then pure (.https none url.hostAndPort)
    else if url.scheme = "socks5" then
      match ← toAddrs with
      | [] => throw .emptyHost
      | addr :: _ => pure (.socks5 addr none false)
    else throw (.urlBadScheme url.scheme)
  match url.password with
  | none => pure scheme
  | some pwd => pure (scheme.setBasicAuth url.username pwd)

/-- What is asked of the resolver; `resolve` is `to_socket_addrs`. -/
def firstAddr (resolve : List Char → UInt16 → Except ε (List SocketAddr)) (host name : List Char)
    (port : UInt16) : Except (ProxyError ε) SocketAddr :=
  match resolve name port with
  | .error e => .error (.ioError e)
  | .ok [] => .error (.addressResolutionFailed host)
  | .ok (addr :: _) => .ok addr

def resolveHost (resolve : List Char → UInt16 → Except ε (List SocketAddr)) (host : List Char)
    (defaultPort : UInt16) : Except (ProxyError ε) SocketAddr :=
  let (hostStr, port) := match splitOnce ':' host with
    | some (h, p) => (h, parseU16 p)
    | none => (host, none)
  firstAddr resolve host hostStr (port.getD defaultPort)

def socketAddrs (resolve : List Char → UInt16 → Except ε (List SocketAddr)) :
    ProxyScheme → Except (ProxyError ε) SocketAddr
  | .http _ host => resolveHost resolve host 80
  | .https _ host => resolveHost resolve host 443
  | .socks5 addr _ _ => .ok addr

def domainOf (host : List Char) : Except (ProxyError ε) (List Char) :=
  match (host.splitOn ':').head? with
  | some domain => .ok domain
  | none => .error (.addressResolutionFailed host)

def getDomain : ProxyScheme → Except (ProxyError ε) (List Char)
  | .http _ host => domainOf host
  | .https _ host => domainOf host
  | .socks5 addr _ _ => .ok (SocketAddr.ip addr)

def appendDefaultPort (host : List Char) (defaultPort : UInt16) : List Char :=
  if ':' ∈ host then host else host ++ ':' :: showPort defaultPort

def getHostAndPort : ProxyScheme → Except (ProxyError ε) (List Char)
  | .http _ host => .ok (appendDefaultPort host 80)
  | .https _ host => .ok (appendDefaultPort host 443)
  | .socks5 addr _ _ => .ok (SocketAddr.text addr)

end ProxyScheme

/-! ### The request to the proxy -/

/-- `tokio_socks::TargetAddr` -/
inductive TargetAddr
  | ip (addr : SocketAddr)
  | domain (name : List Char) (port : UInt16)

def getDomainAndPort : TargetAddr → List Char × UInt16
  | .ip addr => (SocketAddr.ip addr, SocketAddr.port addr)
  | .domain name port => (name, port)

namespace Auth

def getBasicAuthorization (auth : Auth) : List Char :=
  let bytes := Base64.encode (Utf8Text.text (auth.userName ++ ':' :: auth.password))
  bytes.map fun b => Char.ofNat b.toNat

def getProxyAuthorization (auth : Auth) : List Char :=
  "Proxy-Authorization: Basic ".toList ++ auth.getBasicAuthorization ++ ['\r', '\n']

end Auth

def authority (host : List Char) (port : UInt16) : List Char := host ++ ':' :: showPort port

def makeRequest (intercept : ProxyScheme) (host : List Char) (port : UInt16) : List Char :=
  "CONNECT ".toList ++ authority host port ++ " HTTP/1.1".toList ++ '\r' :: '\n' ::
    ("Host: ".toList ++ authority host port ++ '\r' :: '\n' ::
      ((intercept.maybeAuth.map Auth.getProxyAuthorization).getD [] ++ ['\r', '\n']))

/-- What `http_connect` writes to the proxy. -/
def httpConnect (intercept : ProxyScheme) (target : TargetAddr) : List Char :=
  let (domain, port) := getDomainAndPort target
  makeRequest intercept domain port

/-! ### What the endpoints are -/

def defaultPort (scheme : String) : UInt16 := if scheme = "https" then 443 else 80

/-- The port that a URL means. -/
def Url.effectivePort (url : Url) : UInt16 := url.port.getD (defaultPort url.scheme)

/-- The host and the port in an authority. -/
def splitAuthority : List Char → Option (List Char × UInt16)
  | '[' :: rest =>
    match rest.dropWhile (· ≠ ']') with
    | ']' :: ':' :: port =>
      (parsePort port).map fun port => ('[' :: rest.takeWhile (· ≠ ']') ++ [']'], port)
    | _ => none
  | text =>
    match splitOnce ':' text with
    | some (host, port) => if host.isEmpty then none else (parsePort port).map fun port => (host, port)
    | none => none

/-- The target in the first line of a request. -/
def requestTarget (request : List Char) : Option (List Char) :=
  match (splitOnPair '\r' '\n' request)[0]?.map fun line => line.splitOn ' ' with
  | some [_, target, _] => some target
  | _ => none

/-- The value of the `Host` header, which is the second line. -/
def hostHeader (request : List Char) : Option (List Char) :=
  (splitOnPair '\r' '\n' request)[1]?.bind fun line =>
    if "Host: ".toList.isPrefixOf line then some (line.drop 6) else none

namespace Host

/-- The ways to write a host into an authority. -/
def spellings : Host → List (List Char)
  | .domain name => [name.text]
  | .ipv4 ip => [ipv4Text ip]
  | .ipv6 ip => ['[' :: urlIpv6Text (segments ip) ++ [']'], '[' :: ipv6Text (segments ip) ++ [']']]

/-- The host as a target. -/
def target (port : UInt16) (flowinfo scopeId : UInt32) : Host → TargetAddr
  | .domain name => .domain name.text port
  | .ipv4 ip => .ip (.v4 ip port)
  | .ipv6 ip => .ip (.v6 ip port flowinfo scopeId)

end Host

/-- An authority names this host and port. -/
def Names (authority : Option (List Char)) (host : Host) (port : UInt16) : Prop :=
  ∃ text ∈ host.spellings, authority.bind splitAuthority = some (text, port)

/-! ### Characters -/

variable {c : Char} {s t : List Char} {port : UInt16} {ε : Type}

theorem isDigit_of_mem_showPort (hc : c ∈ showPort port) : c.isDigit = true :=
  Nat.isDigit_of_mem_toDigits (by decide) (by decide) hc

theorem notMem_showPort (hc : c.isDigit = false) : c ∉ showPort port := by
  intro hmem
  rw [isDigit_of_mem_showPort hmem] at hc
  cases hc

theorem parsePort_showPort (port : UInt16) : parsePort (showPort port) = some port := by
  have hall : (showPort port).all Char.isDigit = true :=
    List.all_eq_true.mpr fun c hc => isDigit_of_mem_showPort hc
  have hempty : (showPort port).isEmpty = false := List.isEmpty_eq_false_iff.mpr Nat.toDigits_ne_nil
  have hvalue : Nat.ofDigitChars 10 (showPort port) 0 = port.toNat := Nat.ofDigitChars_ten_toDigits
  have hlt : port.toNat < 2 ^ 16 := port.toNat_lt
  simp only [parsePort, hempty, hall, hvalue, Bool.not_true, Bool.or_self, Bool.false_eq_true, if_false]
  rw [if_pos hlt, UInt16.ofNat_toNat]

theorem parseU16_showPort (port : UInt16) : parseU16 (showPort port) = some port := by
  rw [← parsePort_showPort port]
  unfold parseU16
  split
  · rename_i ds heq
    exact absurd (heq ▸ List.mem_cons_self) (notMem_showPort (by decide))
  · rfl

theorem mem_ipv4Text {ip : Vector UInt8 4} (hc : c ∈ ipv4Text ip) : c = '.' ∨ c.isDigit = true := by
  rcases SplitText.mem_intercalate hc with h | ⟨octet, hoctet, h⟩
  · exact Or.inl h
  · obtain ⟨o, -, rfl⟩ := List.mem_map.mp hoctet
    exact Or.inr (Nat.isDigit_of_mem_toDigits (by decide) (by decide) h)

theorem mem_segmentsText {segs : List UInt16} (hc : c ∈ segmentsText segs) : c = ':' ∨ c ∈ hexDigits := by
  induction segs with
  | nil => exact absurd hc List.not_mem_nil
  | cons a segs ih =>
    cases segs with
    | nil => exact Or.inr ((HostPort.isGroup_segmentText a).hex c hc)
    | cons b segs =>
      rw [segmentsText, List.mem_append, List.mem_cons] at hc
      rcases hc with hc | hc | hc
      · exact Or.inr ((HostPort.isGroup_segmentText a).hex c hc)
      · exact Or.inl hc
      · exact ih hc

theorem mem_ipv6Text {segs : Vector UInt16 8} (hc : c ∈ ipv6Text segs) :
    c = ':' ∨ c = '.' ∨ c ∈ hexDigits := by
  have hsegs : ∀ {l : List UInt16}, c ∈ segmentsText l → c = ':' ∨ c = '.' ∨ c ∈ hexDigits := by
    intro l h
    rcases mem_segmentsText h with h | h
    · exact Or.inl h
    · exact Or.inr (Or.inr h)
  unfold ipv6Text at hc
  dsimp only at hc
  split at hc
  · simp only [List.mem_cons] at hc
    rcases hc with h | h | h | h | h | h | h | h
    all_goals first
      | exact Or.inl h
      | exact Or.inr (Or.inr (h ▸ by decide))
      | skip
    rcases mem_ipv4Text h with h | h
    · exact Or.inr (Or.inl h)
    · exact Or.inr (Or.inr (HostPort.mem_hexDigits_of_isDigit h))
  · split at hc
    · rw [List.mem_append, List.mem_cons, List.mem_cons] at hc
      rcases hc with h | h | h | h
      · exact hsegs h
      · exact Or.inl h
      · exact Or.inl h
      · exact hsegs h
    · exact hsegs hc

theorem colon_mem_urlIpv6Text (segs : Vector UInt16 8) : ':' ∈ urlIpv6Text segs := by
  unfold urlIpv6Text
  dsimp only
  split
  · exact List.mem_append_right _ List.mem_cons_self
  · have hlen : segs.toList.length = 8 := segs.length_toList
    match segs.toList, hlen with
    | a :: b :: rest, _ => exact List.mem_append_right _ List.mem_cons_self

theorem not_forbidden_of_isDigit (hc : c.isDigit = true) : forbiddenInDomain c = false := by
  rw [Char.isDigit, Bool.and_eq_true, decide_eq_true_eq, decide_eq_true_eq] at hc
  have hval : 48 ≤ c.toNat ∧ c.toNat ≤ 57 := ⟨hc.1, hc.2⟩
  have hall : ∀ n, 48 ≤ n → n ≤ 57 → forbiddenInDomain (Char.ofNat n) = false := by decide
  rw [← Char.ofNat_toNat c]
  exact hall c.toNat hval.1 hval.2

theorem notMem_serialize {host : Host} (hhost : host.isIpv6 = false) (hc : forbiddenInDomain c = true) :
    c ∉ host.serialize := by
  intro hmem
  have hno : forbiddenInDomain c = false := by
    cases host with
    | domain name => exact name.allowed c hmem
    | ipv4 ip =>
      rcases mem_ipv4Text hmem with h | h
      · rw [h]
        decide
      · exact not_forbidden_of_isDigit h
    | ipv6 ip => cases hhost
  rw [hno] at hc
  cases hc

theorem name_eq_serialize {host : Host} (hhost : host.isIpv6 = false) : host.name = host.serialize := by
  cases host with
  | domain name => rfl
  | ipv4 ip => rfl
  | ipv6 ip => cases hhost

/-! ### A host without colons -/

theorem splitOnce_append {sep : Char} (hs : sep ∉ s) : splitOnce sep (s ++ sep :: t) = some (s, t) := by
  have hne : ∀ c ∈ s, decide (c ≠ sep) = true := fun c hc => decide_eq_true fun h => hs (h ▸ hc)
  rw [splitOnce, if_pos (List.mem_append_right _ List.mem_cons_self), List.takeWhile_append_of_pos hne,
    List.dropWhile_append_of_pos hne]
  simp

theorem splitOnce_of_notMem {sep : Char} (hs : sep ∉ s) : splitOnce sep s = none := if_neg hs

namespace ProxyScheme

variable {url : Url} {d : UInt16}

theorem domainOf_hostAndPort (hhost : ':' ∉ url.host.serialize) :
    domainOf url.hostAndPort = (.ok url.host.serialize : Except (ProxyError ε) (List Char)) := by
  rw [domainOf, Url.hostAndPort]
  cases url.port with
  | none => rw [Option.map_none, Option.getD_none, List.append_nil, List.splitOn_eq_singleton hhost]; rfl
  | some port =>
    rw [Option.map_some, Option.getD_some, List.splitOn_append_cons_self_of_not_mem hhost]
    rfl

theorem appendDefaultPort_hostAndPort (hhost : ':' ∉ url.host.serialize) :
    appendDefaultPort url.hostAndPort d = url.host.serialize ++ ':' :: showPort (url.port.getD d) := by
  rw [appendDefaultPort, Url.hostAndPort]
  cases url.port with
  | none => rw [Option.map_none, Option.getD_none, List.append_nil, if_neg hhost, Option.getD_none]
  | some port =>
    rw [Option.map_some, Option.getD_some, if_pos (List.mem_append_right _ List.mem_cons_self),
      Option.getD_some]

theorem resolveHost_hostAndPort (hhost : ':' ∉ url.host.serialize)
    (resolve : List Char → UInt16 → Except ε (List SocketAddr)) :
    resolveHost resolve url.hostAndPort d =
      firstAddr resolve url.hostAndPort url.host.serialize (url.port.getD d) := by
  have hsplit : (match splitOnce ':' url.hostAndPort with
      | some (h, p) => (h, parseU16 p)
      | none => (url.hostAndPort, none)) = (url.host.serialize, url.port) := by
    rw [Url.hostAndPort]
    cases url.port with
    | none => rw [Option.map_none, Option.getD_none, List.append_nil, splitOnce_of_notMem hhost]
    | some port =>
      rw [Option.map_some, Option.getD_some, splitOnce_append hhost]
      simp only [parseU16_showPort]
  simp only [resolveHost, hsplit]

end ProxyScheme

/-- The three functions of a proxy agree with its URL. -/
structure Agrees (ε : Type) (scheme : ProxyScheme) (url : Url) : Prop where
  domain : scheme.getDomain = (.ok url.host.serialize : Except (ProxyError ε) (List Char))
  hostAndPort : scheme.getHostAndPort =
    (.ok (url.host.serialize ++ ':' :: showPort url.effectivePort) : Except (ProxyError ε) (List Char))
  resolved : ∀ resolve : List Char → UInt16 → Except ε (List SocketAddr),
    scheme.socketAddrs resolve =
      ProxyScheme.firstAddr resolve url.hostAndPort url.host.name url.effectivePort

/-- What `parse` makes of a URL of one of the two schemes. -/
theorem parse_http {url : Url} (hscheme : url.scheme = "http" ∨ url.scheme = "https")
    (toAddrs : Except (ProxyError ε) (List SocketAddr)) :
    ∃ auth, ProxyScheme.parse toAddrs url =
      .ok (if url.scheme = "https" then .https auth url.hostAndPort else .http auth url.hostAndPort) := by
  rcases hscheme with h | h
  · cases hp : url.password with
    | none => exact ⟨none, by simp [ProxyScheme.parse, h, hp, pure, Except.pure, bind, Except.bind]⟩
    | some pwd =>
      exact ⟨some ⟨url.username, pwd⟩,
        by simp [ProxyScheme.parse, h, hp, pure, Except.pure, bind, Except.bind, ProxyScheme.setBasicAuth]⟩
  · cases hp : url.password with
    | none => exact ⟨none, by simp [ProxyScheme.parse, h, hp, pure, Except.pure, bind, Except.bind]⟩
    | some pwd =>
      exact ⟨some ⟨url.username, pwd⟩,
        by simp [ProxyScheme.parse, h, hp, pure, Except.pure, bind, Except.bind, ProxyScheme.setBasicAuth]⟩

theorem agrees_of_plain {url : Url} (hhost : url.host.isIpv6 = false) (auth : Option Auth) :
    Agrees ε (if url.scheme = "https" then .https auth url.hostAndPort else .http auth url.hostAndPort)
      url := by
  have hcolon : ':' ∉ url.host.serialize := notMem_serialize hhost (by decide)
  have hname := name_eq_serialize hhost
  by_cases h : url.scheme = "https"
  · have hport : url.effectivePort = url.port.getD 443 := by rw [Url.effectivePort, defaultPort, if_pos h]
    rw [if_pos h]
    refine ⟨ProxyScheme.domainOf_hostAndPort hcolon, ?_, fun resolve => ?_⟩
    · rw [ProxyScheme.getHostAndPort, ProxyScheme.appendDefaultPort_hostAndPort hcolon, hport]
    · rw [ProxyScheme.socketAddrs, ProxyScheme.resolveHost_hostAndPort hcolon, hname, hport]
  · have hport : url.effectivePort = url.port.getD 80 := by rw [Url.effectivePort, defaultPort, if_neg h]
    rw [if_neg h]
    refine ⟨ProxyScheme.domainOf_hostAndPort hcolon, ?_, fun resolve => ?_⟩
    · rw [ProxyScheme.getHostAndPort, ProxyScheme.appendDefaultPort_hostAndPort hcolon, hport]
    · rw [ProxyScheme.socketAddrs, ProxyScheme.resolveHost_hostAndPort hcolon, hname, hport]

/-- `get_domain` never returns a colon, and an IPv6 address has some. -/
theorem not_agrees_of_ipv6 {url : Url} (hhost : url.host.isIpv6 = true) (auth : Option Auth) :
    ¬ Agrees ε (if url.scheme = "https" then .https auth url.hostAndPort else .http auth url.hostAndPort)
      url := by
  intro h
  have hcolon : ':' ∈ url.host.serialize := by
    cases hh : url.host with
    | domain name => rw [hh] at hhost; cases hhost
    | ipv4 ip => rw [hh] at hhost; cases hhost
    | ipv6 ip =>
      exact List.mem_cons_of_mem _ (List.mem_append_left _ (colon_mem_urlIpv6Text _))
  have hdomain : ProxyScheme.domainOf url.hostAndPort =
      (.ok url.host.serialize : Except (ProxyError ε) (List Char)) := by
    have hd := h.domain
    split at hd
    · exact hd
    · exact hd
  rw [ProxyScheme.domainOf] at hdomain
  cases hsplit : (url.hostAndPort.splitOn ':').head? with
  | none =>
    rw [hsplit] at hdomain
    cases hdomain
  | some domain =>
    simp only [hsplit, Except.ok.injEq] at hdomain
    rw [← hdomain] at hcolon
    exact SplitText.notMem_of_mem_splitOn (List.mem_of_head? hsplit) hcolon

/-! ### The authority in the request -/

/-- A text that can stand in a line between blanks. -/
def OneWord (s : List Char) : Prop := ' ' ∉ s ∧ '\r' ∉ s

theorem oneWord_authority (hs : OneWord s) (port : UInt16) : OneWord (authority s port) := by
  have happend : ∀ c, c ∉ s → c ≠ ':' → c.isDigit = false → c ∉ authority s port := by
    intro c hc hcolon hdigit hmem
    rcases List.mem_append.mp hmem with h | h
    · exact hc h
    · rcases List.mem_cons.mp h with h | h
      · exact hcolon h
      · exact notMem_showPort hdigit h
  exact ⟨happend ' ' hs.1 (by decide) (by decide), happend '\r' hs.2 (by decide) (by decide)⟩

theorem splitOnPair_lines {u v w : List Char} (hu : '\r' ∉ u) (hv : '\r' ∉ v) :
    splitOnPair '\r' '\n' (u ++ '\r' :: '\n' :: (v ++ '\r' :: '\n' :: w)) =
      u :: v :: splitOnPair '\r' '\n' w := by
  rw [HostPort.splitOnPair_cons hu, HostPort.splitOnPair_cons hv]

theorem splitOnPair_makeRequest (intercept : ProxyScheme) (hs : OneWord s) (port : UInt16) :
    ∃ rest, splitOnPair '\r' '\n' (makeRequest intercept s port) =
      ("CONNECT ".toList ++ authority s port ++ " HTTP/1.1".toList) ::
        ("Host: ".toList ++ authority s port) :: rest := by
  have hword := (oneWord_authority hs port).2
  have hfirst : '\r' ∉ "CONNECT ".toList ++ authority s port ++ " HTTP/1.1".toList := by
    rw [List.mem_append, List.mem_append, not_or, not_or]
    exact ⟨⟨by decide +kernel, hword⟩, by decide +kernel⟩
  have hsecond : '\r' ∉ "Host: ".toList ++ authority s port := by
    rw [List.mem_append, not_or]
    exact ⟨by decide +kernel, hword⟩
  exact ⟨_, splitOnPair_lines hfirst hsecond⟩

theorem requestTarget_makeRequest (intercept : ProxyScheme) (hs : OneWord s) :
    requestTarget (makeRequest intercept s port) = some (authority s port) := by
  obtain ⟨rest, hrest⟩ := splitOnPair_makeRequest intercept hs port
  have hline : "CONNECT ".toList ++ authority s port ++ " HTTP/1.1".toList =
      "CONNECT".toList ++ ' ' :: (authority s port ++ ' ' :: "HTTP/1.1".toList) := by
    have hmethod : "CONNECT ".toList = "CONNECT".toList ++ [' '] := by decide
    have hversion : " HTTP/1.1".toList = ' ' :: "HTTP/1.1".toList := by decide
    rw [hmethod, hversion, List.append_assoc, List.append_assoc, List.singleton_append]
  have hwords : ("CONNECT ".toList ++ authority s port ++ " HTTP/1.1".toList).splitOn ' ' =
      ["CONNECT".toList, authority s port, "HTTP/1.1".toList] := by
    rw [hline, List.splitOn_append_cons_self_of_not_mem (by decide),
      List.splitOn_append_cons_self_of_not_mem (oneWord_authority hs port).1,
      List.splitOn_eq_singleton (by decide)]
  rw [requestTarget, hrest, List.getElem?_cons_zero, Option.map_some, hwords]

theorem hostHeader_makeRequest (intercept : ProxyScheme) (hs : OneWord s) :
    hostHeader (makeRequest intercept s port) = some (authority s port) := by
  obtain ⟨rest, hrest⟩ := splitOnPair_makeRequest intercept hs port
  have hpre : "Host: ".toList.isPrefixOf ("Host: ".toList ++ authority s port) = true := by
    rw [List.isPrefixOf_iff_prefix]
    exact List.prefix_append _ _
  rw [hostHeader, hrest, List.getElem?_cons_succ, List.getElem?_cons_zero, Option.bind_some, if_pos hpre]
  exact congrArg some (List.drop_left' (by decide))

/-- The request line and the `Host` header of a request both name the target. -/
def NamesTarget (request : List Char) (host : Host) (port : UInt16) : Prop :=
  Names (requestTarget request) host port ∧ Names (hostHeader request) host port

theorem splitAuthority_of_head (hs : s.head? ≠ some '[') :
    splitAuthority s =
      match splitOnce ':' s with
      | some (host, port) => if host.isEmpty then none else (parsePort port).map fun port => (host, port)
      | none => none := by
  unfold splitAuthority
  split
  · exact absurd rfl hs
  · rfl

theorem splitAuthority_plain (hne : s ≠ []) (hcolon : ':' ∉ s) (hbracket : '[' ∉ s) :
    splitAuthority (authority s port) = some (s, port) := by
  have hhead : (authority s port).head? ≠ some '[' := by
    intro h
    rw [authority, List.head?_append_of_ne_nil _ hne] at h
    exact hbracket (List.mem_of_head? h)
  rw [splitAuthority_of_head hhead, authority, splitOnce_append hcolon]
  simp only [List.isEmpty_iff, hne, if_false, parsePort_showPort, Option.map_some]

/-- Without a bracket in front no host with a bracket is found. -/
theorem head?_of_splitAuthority (hs : s.head? ≠ some '[') (h : splitAuthority s = some (t, port)) :
    t.head? ≠ some '[' := by
  rw [splitAuthority_of_head hs, splitOnce] at h
  by_cases hcolon : ':' ∈ s
  · simp only [if_pos hcolon] at h
    by_cases hempty : (s.takeWhile (· ≠ ':')).isEmpty = true
    · rw [if_pos hempty] at h
      cases h
    · rw [if_neg hempty] at h
      obtain ⟨p, -, hp⟩ := Option.map_eq_some_iff.mp h
      have ht : s.takeWhile (· ≠ ':') = t := congrArg Prod.fst hp
      intro hhead
      apply hs
      rw [← ht] at hhead
      have hpre : s.takeWhile (· ≠ ':') <+: s := List.takeWhile_prefix _
      obtain ⟨tail, htail⟩ := hpre
      rw [← htail, List.head?_append_of_ne_nil _ fun hnil => hempty (List.isEmpty_iff.mpr hnil)]
      exact hhead
  · simp only [if_neg hcolon] at h
    cases h

theorem bracket_notMem_ipv6Text (segs : Vector UInt16 8) : '[' ∉ ipv6Text segs := by
  intro h
  rcases mem_ipv6Text h with h | h | h
  · cases h
  · cases h
  · exact absurd h (by decide)

theorem oneWord_ipv6Text (segs : Vector UInt16 8) : OneWord (ipv6Text segs) := by
  constructor
  · intro h
    rcases mem_ipv6Text h with h | h | h
    · cases h
    · cases h
    · exact absurd h (by decide)
  · intro h
    rcases mem_ipv6Text h with h | h | h
    · cases h
    · cases h
    · exact absurd h (by decide)

theorem serialize_ne_nil (host : Host) : host.serialize ≠ [] := by
  cases host with
  | domain name => exact name.ne_nil
  | ipv6 ip => exact List.cons_ne_nil _ _
  | ipv4 ip =>
    intro h
    have hlen : ip.toList.length = 4 := ip.length_toList
    match hip : ip.toList, hlen with
    | a :: b :: rest, _ =>
      rw [Host.serialize, ipv4Text, hip, List.map_cons, List.map_cons, List.intercalate_cons_cons] at h
      simp at h

theorem httpConnect_target (intercept : ProxyScheme) (host : Host) (port : UInt16)
    (flowinfo scopeId : UInt32) :
    httpConnect intercept (host.target port flowinfo scopeId) =
      makeRequest intercept (match host with
        | .domain name => name.text
        | .ipv4 ip => ipv4Text ip
        | .ipv6 ip => ipv6Text (segments ip)) port := by
  cases host with
  | domain name => rfl
  | ipv4 ip => rfl
  | ipv6 ip => rfl

theorem namesTarget_of_plain {host : Host} (hhost : host.isIpv6 = false) (intercept : ProxyScheme)
    (port : UInt16) (flowinfo scopeId : UInt32) :
    NamesTarget (httpConnect intercept (host.target port flowinfo scopeId)) host port := by
  have hrequest : httpConnect intercept (host.target port flowinfo scopeId) =
      makeRequest intercept host.serialize port := by
    rw [httpConnect_target]
    cases host with
    | domain name => rfl
    | ipv4 ip => rfl
    | ipv6 ip => cases hhost
  have hspelling : host.serialize ∈ host.spellings := by
    cases host with
    | domain name => exact List.mem_cons_self
    | ipv4 ip => exact List.mem_cons_self
    | ipv6 ip => cases hhost
  have hword : OneWord host.serialize :=
    ⟨notMem_serialize hhost (by decide), notMem_serialize hhost (by decide)⟩
  have hsplit : splitAuthority (authority host.serialize port) = some (host.serialize, port) :=
    splitAuthority_plain (serialize_ne_nil host) (notMem_serialize hhost (by decide))
      (notMem_serialize hhost (by decide))
  rw [hrequest]
  refine ⟨⟨host.serialize, hspelling, ?_⟩, ⟨host.serialize, hspelling, ?_⟩⟩
  · rw [requestTarget_makeRequest intercept hword, Option.bind_some, hsplit]
  · rw [hostHeader_makeRequest intercept hword, Option.bind_some, hsplit]

theorem not_namesTarget_of_ipv6 (ip : Vector UInt8 16) (intercept : ProxyScheme) (port : UInt16)
    (flowinfo scopeId : UInt32) :
    ¬ NamesTarget (httpConnect intercept ((Host.ipv6 ip).target port flowinfo scopeId)) (.ipv6 ip) port := by
  intro h
  obtain ⟨text, htext, hnames⟩ := h.1
  have hbracket : text.head? = some '[' := by
    simp only [Host.spellings, List.mem_cons, List.not_mem_nil, or_false] at htext
    rcases htext with h | h
    · rw [h]
      rfl
    · rw [h]
      rfl
  rw [httpConnect_target, requestTarget_makeRequest intercept (oneWord_ipv6Text _), Option.bind_some] at hnames
  refine head?_of_splitAuthority (fun hhead => ?_) hnames hbracket
  rcases List.mem_append.mp (List.mem_of_head? hhead) with h | h
  · exact bracket_notMem_ipv6Text _ h
  · rcases List.mem_cons.mp h with h | h
    · cases h
    · exact notMem_showPort (by decide) h

/-- The text of a proxy is split right, and the request names its target, exactly when the host is
not an IPv6 address. -/
theorem endpoints_iff (ε : Type) (toAddrs : Except (ProxyError ε) (List SocketAddr)) (url : Url)
    (hurl : url.scheme = "http" ∨ url.scheme = "https") :
    ((∃ scheme, ProxyScheme.parse toAddrs url = .ok scheme ∧ Agrees ε scheme url) ↔
      url.host.isIpv6 = false) ∧
    ∀ (intercept : ProxyScheme) (host : Host) (port : UInt16) (flowinfo scopeId : UInt32),
      NamesTarget (httpConnect intercept (host.target port flowinfo scopeId)) host port ↔
        host.isIpv6 = false := by
  constructor
  · obtain ⟨auth, hparse⟩ := parse_http hurl toAddrs
    constructor
    · intro ⟨scheme, hscheme, hagrees⟩
      rw [hparse] at hscheme
      cases hscheme
      by_contra hhost
      exact not_agrees_of_ipv6 (Bool.not_eq_false _ ▸ hhost) auth hagrees
    · intro hhost
      exact ⟨_, hparse, agrees_of_plain hhost auth⟩
  · intro intercept host port flowinfo scopeId
    constructor
    · intro h
      cases host with
      | domain name => rfl
      | ipv4 ip => rfl
      | ipv6 ip => exact absurd h (not_namesTarget_of_ipv6 ip intercept port flowinfo scopeId)
    · intro hhost
      exact namesTarget_of_plain hhost intercept port flowinfo scopeId

def noAddrs : Except (ProxyError Unit) (List SocketAddr) := .ok []

theorem plainUrl_size : #[(10 : UInt8), 0, 0, 1].size = 4 := rfl

def plainUrl : Url := { scheme := "http", host := .ipv4 ⟨#[10, 0, 0, 1], plainUrl_size⟩, port := some 3128 }

theorem endpoints_plainUrl :
    (∃ scheme, ProxyScheme.parse noAddrs plainUrl = .ok scheme ∧ Agrees Unit scheme plainUrl) ∧
      NamesTarget (httpConnect (.http none plainUrl.hostAndPort) ((Host.ipv4 #v[1, 2, 3, 4]).target 21117 0 0))
        (.ipv4 #v[1, 2, 3, 4]) 21117 :=
  ⟨(endpoints_iff Unit noAddrs plainUrl (Or.inl rfl)).1.mpr rfl,
    ((endpoints_iff Unit noAddrs plainUrl (Or.inl rfl)).2 _ _ _ _ _).mpr rfl⟩

def loopbackUrl : Url := { scheme := "https", host := .ipv6 SocketAddr.loopbackV6 }

/-- The proxy at `https://[::1]`, and the target `::1` with port 443, which is named `::1:443`. -/
theorem endpoints_loopback :
    loopbackUrl.hostAndPort = "[::1]".toList ∧
      (loopbackUrl.hostAndPort.splitOn ':').head? = some "[".toList ∧
      ProxyScheme.appendDefaultPort loopbackUrl.hostAndPort 443 = "[::1]".toList ∧
      requestTarget (httpConnect (.https none loopbackUrl.hostAndPort)
        ((Host.ipv6 SocketAddr.loopbackV6).target 443 0 0)) = some "::1:443".toList ∧
      ¬ (∀ url : Url, url.scheme = "http" ∨ url.scheme = "https" →
        ∃ scheme, ProxyScheme.parse noAddrs url = .ok scheme ∧ Agrees Unit scheme url) ∧
      ¬ ∀ (intercept : ProxyScheme) (host : Host) (port : UInt16),
        NamesTarget (httpConnect intercept (host.target port 0 0)) host port := by
  refine ⟨by decide +kernel, by decide +kernel, by decide +kernel, by decide +kernel, fun h => ?_, fun h => ?_⟩
  · obtain ⟨scheme, hscheme, hagrees⟩ := h loopbackUrl (Or.inr rfl)
    have hloopback : loopbackUrl.scheme = "http" ∨ loopbackUrl.scheme = "https" := Or.inr rfl
    obtain ⟨auth, hparse⟩ := parse_http hloopback noAddrs
    rw [hparse] at hscheme
    cases hscheme
    exact not_agrees_of_ipv6 rfl auth hagrees
  · exact not_namesTarget_of_ipv6 SocketAddr.loopbackV6 (.https none []) 443 0 0 (h _ _ _)

end RustDesk.Proxy
