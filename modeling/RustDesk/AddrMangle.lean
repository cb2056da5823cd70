import RustDesk.BytesCodec

/-!
# Mangled addresses

Routers rewrite addresses that they find in packets, so an address is sent in disguise. An
IPv4 address and its port are added to a clock value and packed with it into a number of 128
bits, whose leading zero bytes are not sent. An IPv6 address is sent as it is, with its port
behind it; the length tells the two apart.
-/

namespace RustDesk

/-- `std::net::SocketAddr` -/
inductive SocketAddr
  | v4 (ip : Vector UInt8 4) (port : UInt16)
  | v6 (ip : Vector UInt8 16) (port : UInt16) (flowinfo scopeId : UInt32)
  deriving DecidableEq, Repr

namespace SocketAddr

/-- `::1` -/
def loopbackV6 : Vector UInt8 16 := #v[0, 0, 0, 0, 0, 0, 0, 0, 0, 0, 0, 0, 0, 0, 0, 1]

/-- The address behind ten zero bytes and two that are both `0` or both `0xFF`: the
compatible and the mapped form of an IPv4 address. -/
def toIpv4 (ip : Vector UInt8 16) : Option (Vector UInt8 4) :=
  let front := ip.toList.take 12
  if front = List.replicate 12 0 ∨ front = List.replicate 10 0 ++ [0xFF, 0xFF] then
    some #v[ip[12], ip[13], ip[14], ip[15]]
  else none

def tryIntoV4 : SocketAddr → SocketAddr
  | v6 ip port flowinfo scopeId =>
    if ip ≠ loopbackV6 then
      match toIpv4 ip with
      | some ip4 => .v4 ip4 port
      | none => .v6 ip port flowinfo scopeId
    else .v6 ip port flowinfo scopeId
  | addr => addr

/-- The address without the two fields that IPv6 adds. -/
def unscoped : SocketAddr → SocketAddr
  | v6 ip port _ _ => .v6 ip port 0 0
  | addr => addr

end SocketAddr

namespace AddrMangle

open SocketAddr

/-- The number that is sent for an IPv4 address; `tm` is the clock in microseconds. -/
def mangle (ip tm port : Nat) : Nat :=
  ((ip + tm) <<< 49) ||| (tm <<< 17) ||| (port + (tm &&& 0xFFFF))

/-- The zero bytes at the end. -/
def nPadding (bytes : Bytes) : Nat := (bytes.reverse.takeWhile (· = 0)).length

def encode (tm : UInt32) (addr : SocketAddr) : Bytes :=
  match addr.tryIntoV4 with
  | .v4 ip port =>
    let bytes := toLeBytes 16 (mangle (ofLeBytes ip.toList) tm.toNat port.toNat)
    bytes.take (16 - nPadding bytes)
  | .v6 ip port _ _ => ip.toList ++ toLeBytes 2 port.toNat

/-- `a - b` of `u128` values in a release build -/
def subU128 (a b : Nat) : Nat := (a + 2 ^ 128 - b) % 2 ^ 128

def bytesV4 (n : Nat) : Vector UInt8 4 := ⟨(toLeBytes 4 n).toArray, by simp⟩

def bytesV6 (bytes : Bytes) : Vector UInt8 16 := Vector.ofFn fun i => bytes.getD i 0

/-- `Config::get_any_listen_addr(false)` -/
def anyListenAddr : SocketAddr := .v6 (Vector.replicate 16 0) 0 0 0

def decode (bytes : Bytes) : SocketAddr :=
  if 16 < bytes.length then
    if bytes.length ≠ 18 then anyListenAddr
    else .v6 (bytesV6 (bytes.take 16)) (UInt16.ofNat (ofLeBytes (bytes.drop 16))) 0 0
  else
    let padded := bytes ++ List.replicate (16 - bytes.length) 0
    let number := ofLeBytes padded
    let tm := (number >>> 17) &&& 0xFFFFFFFF
    let ip := subU128 (number >>> 49) tm
    let port := subU128 (number &&& 0xFFFFFF) (tm &&& 0xFFFF)
    .v4 (bytesV4 ip) (UInt16.ofNat port)

/-! ### The number -/

section Number

variable {ip tm port : Nat}

theorem and_0xFFFF (n : Nat) : n &&& 0xFFFF = n % 2 ^ 16 := Nat.and_two_pow_sub_one_eq_mod n 16

theorem and_0xFFFFFF (n : Nat) : n &&& 0xFFFFFF = n % 2 ^ 24 := Nat.and_two_pow_sub_one_eq_mod n 24

theorem and_0xFFFFFFFF (n : Nat) : n &&& 0xFFFFFFFF = n % 2 ^ 32 :=
  Nat.and_two_pow_sub_one_eq_mod n 32

/-- The three parts of the number do not overlap, as the port and the low bits of the clock
stay below 17 bits. -/
theorem mangle_eq (htm : tm < 2 ^ 32) (hport : port < 2 ^ 16) :
    mangle ip tm port = (ip + tm) * 2 ^ 49 + tm * 2 ^ 17 + (port + tm % 2 ^ 16) := by
  have hlow : port + tm % 2 ^ 16 < 2 ^ 17 := by omega
  have hmid : tm * 2 ^ 17 + (port + tm % 2 ^ 16) < 2 ^ 49 := by omega
  unfold mangle
  rw [and_0xFFFF, Nat.or_assoc, ← Nat.shiftLeft_add_eq_or_of_lt hlow, Nat.shiftLeft_eq tm 17,
    ← Nat.shiftLeft_add_eq_or_of_lt hmid, Nat.shiftLeft_eq, Nat.add_assoc]

theorem mangle_lt (hip : ip < 2 ^ 32) (htm : tm < 2 ^ 32) (hport : port < 2 ^ 16) :
    mangle ip tm port < 256 ^ 16 := by
  rw [mangle_eq htm hport]
  omega

theorem tm_of_mangle (htm : tm < 2 ^ 32) (hport : port < 2 ^ 16) :
    (mangle ip tm port >>> 17) &&& 0xFFFFFFFF = tm := by
  have hshift : mangle ip tm port >>> 17 = (ip + tm) * 2 ^ 32 + tm := by
    rw [Nat.shiftRight_eq_div_pow, mangle_eq htm hport]
    omega
  rw [and_0xFFFFFFFF, hshift]
  omega

theorem ip_of_mangle (hip : ip < 2 ^ 32) (htm : tm < 2 ^ 32) (hport : port < 2 ^ 16) :
    subU128 (mangle ip tm port >>> 49) tm = ip := by
  have hshift : mangle ip tm port >>> 49 = ip + tm := by
    rw [Nat.shiftRight_eq_div_pow, mangle_eq htm hport]
    omega
  unfold subU128
  rw [hshift]
  omega

/-- The mask of 24 bits lets seven bits of the clock through, which the port does not keep. -/
theorem port_of_mangle (htm : tm < 2 ^ 32) (hport : port < 2 ^ 16) :
    subU128 (mangle ip tm port &&& 0xFFFFFF) (tm &&& 0xFFFF) % 2 ^ 16 = port := by
  unfold subU128
  rw [and_0xFFFFFF, and_0xFFFF, mangle_eq htm hport]
  omega

end Number

/-! ### The bytes -/

theorem ofLeBytes_append_zeros (bytes : Bytes) (n : Nat) :
    ofLeBytes (bytes ++ List.replicate n 0) = ofLeBytes bytes := by
  induction bytes with
  | nil =>
    induction n with
    | zero => rfl
    | succ n ih =>
      rw [List.nil_append] at ih ⊢
      simp [List.replicate_succ, ofLeBytes, ih]
  | cons b bytes ih => rw [List.cons_append, ofLeBytes, ofLeBytes, ih]

theorem toLeBytes_ofLeBytes (bytes : Bytes) :
    toLeBytes bytes.length (ofLeBytes bytes) = bytes := by
  induction bytes with
  | nil => rfl
  | cons b bytes ih =>
    have hb := b.toNat_lt
    have hdiv : (b.toNat + 256 * ofLeBytes bytes) / 256 = ofLeBytes bytes := by omega
    have hmod : UInt8.ofNat (b.toNat + 256 * ofLeBytes bytes) = b := by
      apply UInt8.toNat_inj.mp
      rw [UInt8.toNat_ofNat']
      omega
    rw [List.length_cons, ofLeBytes, toLeBytes, hdiv, hmod, ih]

theorem take_append_zeros (bytes : Bytes) :
    bytes = bytes.take (bytes.length - nPadding bytes) ++ List.replicate (nPadding bytes) 0 := by
  have hzeros : bytes.reverse.takeWhile (· = 0) = List.replicate (nPadding bytes) 0 := by
    rw [List.eq_replicate_iff]
    refine ⟨rfl, fun b hb => ?_⟩
    exact of_decide_eq_true (List.all_eq_true.mp List.all_takeWhile b hb)
  have hsplit : bytes = (bytes.reverse.dropWhile (· = 0)).reverse ++
      List.replicate (nPadding bytes) 0 := by
    rw [← List.reverse_replicate, ← hzeros, ← List.reverse_append, List.takeWhile_append_dropWhile,
      List.reverse_reverse]
  have hfront : bytes.take (bytes.length - nPadding bytes) =
      (bytes.reverse.dropWhile (· = 0)).reverse := by
    have hlen : bytes.length - nPadding bytes =
        (bytes.reverse.dropWhile (· = 0)).reverse.length := by
      have := congrArg List.length hsplit
      rw [List.length_append, List.length_replicate] at this
      omega
    rw [hlen]
    generalize (bytes.reverse.dropWhile (· = 0)).reverse = front at hsplit ⊢
    rw [hsplit]
    exact List.take_left
  rw [hfront]
  exact hsplit

/-- The bytes of a number come back when the zeros are cut off and filled up again. -/
theorem ofLeBytes_padded {v : Nat} (hv : v < 256 ^ 16) :
    let bytes := (toLeBytes 16 v).take (16 - nPadding (toLeBytes 16 v))
    bytes.length ≤ 16 ∧ ofLeBytes (bytes ++ List.replicate (16 - bytes.length) 0) = v := by
  intro bytes
  have hsplit := take_append_zeros (toLeBytes 16 v)
  rw [length_toLeBytes] at hsplit
  have hle : bytes.length ≤ 16 := by
    rw [List.length_take, length_toLeBytes]
    omega
  refine ⟨hle, ?_⟩
  calc ofLeBytes (bytes ++ List.replicate (16 - bytes.length) 0)
      = ofLeBytes bytes := ofLeBytes_append_zeros _ _
    _ = ofLeBytes (bytes ++ List.replicate (nPadding (toLeBytes 16 v)) 0) :=
        (ofLeBytes_append_zeros _ _).symm
    _ = ofLeBytes (toLeBytes 16 v) := by rw [← hsplit]
    _ = v := ofLeBytes_toLeBytes hv

theorem bytesV4_ofLeBytes (ip : Vector UInt8 4) : bytesV4 (ofLeBytes ip.toList) = ip := by
  apply Vector.toList_inj.mp
  have hlen : ip.toList.length = 4 := Vector.length_toList
  calc (bytesV4 (ofLeBytes ip.toList)).toList
      = toLeBytes ip.toList.length (ofLeBytes ip.toList) := by rw [hlen]; rfl
    _ = ip.toList := toLeBytes_ofLeBytes ip.toList

theorem bytesV6_toList (ip : Vector UInt8 16) : bytesV6 ip.toList = ip := by
  apply Vector.ext
  intro i hi
  simp [bytesV6, List.getD]

theorem ofLeBytes_toList_lt (ip : Vector UInt8 4) : ofLeBytes ip.toList < 2 ^ 32 := by
  have h := ofLeBytes_lt ip.toList
  rw [Vector.length_toList] at h
  omega

theorem decode_v4 (tm : UInt32) (ip : Vector UInt8 4) (port : UInt16) :
    decode (encode tm (.v4 ip port)) = .v4 ip port ∧ (encode tm (.v4 ip port)).length ≤ 16 := by
  have hip := ofLeBytes_toList_lt ip
  have htm : tm.toNat < 2 ^ 32 := tm.toNat_lt
  have hport : port.toNat < 2 ^ 16 := port.toNat_lt
  obtain ⟨hle, hnumber⟩ := ofLeBytes_padded (mangle_lt hip htm hport)
  have hencode : encode tm (.v4 ip port) =
      (toLeBytes 16 (mangle (ofLeBytes ip.toList) tm.toNat port.toNat)).take
        (16 - nPadding (toLeBytes 16 (mangle (ofLeBytes ip.toList) tm.toNat port.toNat))) := rfl
  rw [hencode]
  refine ⟨?_, hle⟩
  unfold decode
  rw [if_neg (Nat.not_lt.mpr hle)]
  dsimp only
  rw [hnumber, tm_of_mangle htm hport, ip_of_mangle hip htm hport, bytesV4_ofLeBytes]
  congr 1
  apply UInt16.toNat_inj.mp
  rw [UInt16.toNat_ofNat']
  exact port_of_mangle htm hport

theorem decode_v6 (ip : Vector UInt8 16) (port : UInt16) :
    decode (ip.toList ++ toLeBytes 2 port.toNat) = .v6 ip port 0 0 ∧
      (ip.toList ++ toLeBytes 2 port.toNat).length = 18 := by
  have hip : ip.toList.length = 16 := Vector.length_toList
  have hlen : (ip.toList ++ toLeBytes 2 port.toNat).length = 18 := by
    rw [List.length_append, hip, length_toLeBytes]
  refine ⟨?_, hlen⟩
  unfold decode
  rw [hlen, if_pos (by decide), if_neg (by decide), List.take_left' hip, List.drop_left' hip,
    bytesV6_toList, ofLeBytes_toLeBytes port.toNat_lt, UInt16.ofNat_toNat]

/-- Every address comes back as the IPv4 address it stands for, if it stands for one, whatever
the clock says, and IPv6 addresses without their flow and scope. An IPv4 address takes 16
bytes at most and an IPv6 address 18. -/
theorem decode_encode_addr (tm : UInt32) (addr : SocketAddr) :
    decode (encode tm addr) = addr.tryIntoV4.unscoped ∧
      (∀ ip port, addr.tryIntoV4 = .v4 ip port → (encode tm addr).length ≤ 16) ∧
      ∀ ip port flowinfo scopeId, addr.tryIntoV4 = .v6 ip port flowinfo scopeId →
        (encode tm addr).length = 18 := by
  cases haddr : addr.tryIntoV4 with
  | v4 ip port =>
    have hencode : encode tm addr = encode tm (.v4 ip port) := by
      unfold encode
      rw [haddr]
      rfl
    obtain ⟨hdecode, hlen⟩ := decode_v4 tm ip port
    rw [hencode]
    refine ⟨hdecode, fun _ _ _ => hlen, fun _ _ _ _ h => ?_⟩
    cases h
  | v6 ip port flowinfo scopeId =>
    have hencode : encode tm addr = ip.toList ++ toLeBytes 2 port.toNat := by
      unfold encode
      rw [haddr]
    obtain ⟨hdecode, hlen⟩ := decode_v6 ip port
    rw [hencode]
    refine ⟨hdecode, fun _ _ h => ?_, fun _ _ _ _ _ => hlen⟩
    cases h

/-- A mapped address, and a clock with which nothing is sent. -/
example : decode (encode 0 (.v6 #v[0, 0, 0, 0, 0, 0, 0, 0, 0, 0, 0xFF, 0xFF, 127, 0, 0, 1] 80 7 7)) =
    .v4 #v[127, 0, 0, 1] 80 ∧ encode 0 (.v6 (Vector.replicate 16 0) 0 0 0) = [] := by
  decide +kernel

end AddrMangle

end RustDesk
