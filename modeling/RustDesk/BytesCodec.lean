import RustDesk.Message
import Mathlib.Data.Nat.Bits
import Mathlib.Tactic.Ring

/-!
# Frames on a byte stream

`BytesCodec` is the codec of every TCP connection between two peers. A frame is its
payload behind a header of one to four bytes, little endian, whose two low bits hold the
number of the other bytes of the header. In raw mode the bytes pass as they are.

The decoder sees the part of the stream that has arrived. `Unread` relates its state and
the bytes ahead of it to the frames that are still to come and to the bytes behind the
last frame; it does not depend on where the stream was cut.
-/

namespace RustDesk

inductive DecodeState
  | head
  | data (n : Nat)
  deriving DecidableEq, Repr

inductive CodecError
  | tooBigPacket
  | overflow
  deriving DecidableEq, Repr

structure BytesCodec where
  state : DecodeState := .head
  raw : Bool := false
  maxPacketLength : Nat := 2 ^ 64 - 1
  deriving DecidableEq, Repr

/-- The `k` low bytes of `n`, lowest first. -/
def toLeBytes : Nat → Nat → Bytes
  | 0, _ => []
  | k + 1, n => UInt8.ofNat n :: toLeBytes k (n / 256)

def ofLeBytes : Bytes → Nat
  | [] => 0
  | b :: bs => b.toNat + 256 * ofLeBytes bs

@[simp] theorem length_toLeBytes (k n : Nat) : (toLeBytes k n).length = k := by
  induction k generalizing n with
  | zero => rfl
  | succ k ih => simp [toLeBytes, ih]

theorem ofLeBytes_toLeBytes {k n : Nat} (h : n < 256 ^ k) : ofLeBytes (toLeBytes k n) = n := by
  induction k generalizing n with
  | zero =>
    have hn : n = 0 := by simpa using h
    simp [hn, toLeBytes, ofLeBytes]
  | succ k ih =>
    have hd : n / 256 < 256 ^ k := by
      rw [Nat.div_lt_iff_lt_mul (by decide)]
      rwa [pow_succ] at h
    simp only [toLeBytes, ofLeBytes, UInt8.toNat_ofNat', ih hd]
    omega

theorem ofLeBytes_lt (bytes : Bytes) : ofLeBytes bytes < 256 ^ bytes.length := by
  induction bytes with
  | nil => exact Nat.one_pos
  | cons b bytes ih =>
    have hb := b.toNat_lt
    rw [ofLeBytes, List.length_cons, Nat.pow_succ]
    omega

namespace BytesCodec

def setRaw (c : BytesCodec) : BytesCodec := { c with raw := true }

/-- `((src[0] & 0x3) + 1) as usize` -/
def headLen (b : UInt8) : Nat := b.toNat % 4 + 1

/-- `decode_head`; an error leaves the bytes where they are. -/
def decodeHead (c : BytesCodec) (src : Bytes) : Bytes × Except CodecError (Option Nat) :=
  match src with
  | [] => (src, .ok none)
  | b :: _ =>
    if src.length < headLen b then (src, .ok none)
    else
      let n := ofLeBytes (src.take (headLen b)) / 4
      if c.maxPacketLength < n then (src, .error .tooBigPacket)
      else (src.drop (headLen b), .ok (some n))

/-- `decode_data`, and the state it leaves. -/
def decodeData (c : BytesCodec) (n : Nat) (src : Bytes) : BytesCodec × Bytes × Option Bytes :=
  if src.length < n then ({ c with state := .data n }, src, none)
  else ({ c with state := .head }, src.drop n, some (src.take n))

/-- `Decoder::decode`: the codec, the bytes left, and what was read. -/
def decode (c : BytesCodec) (src : Bytes) :
    BytesCodec × Bytes × Except CodecError (Option Bytes) :=
  if c.raw then
    if src.isEmpty then (c, src, .ok none) else (c, [], .ok (some src))
  else match c.state with
    | .head =>
      match c.decodeHead src with
      | (src, .error e) => (c, src, .error e)
      | (src, .ok none) => (c, src, .ok none)
      | (src, .ok (some n)) =>
        let r := c.decodeData n src
        (r.1, r.2.1, .ok r.2.2)
    | .data n =>
      let r := c.decodeData n src
      (r.1, r.2.1, .ok r.2.2)

/-- The longest payload of a frame. -/
def maxPayload : Nat := 0x3FFFFFFF

/-- The header of a payload of a given length. -/
def header (len : Nat) : Bytes :=
  if len ≤ 0x3F then toLeBytes 1 (len * 4)
  else if len ≤ 0x3FFF then toLeBytes 2 (len * 4 + 1)
  else if len ≤ 0x3FFFFF then toLeBytes 3 (len * 4 + 2)
  else toLeBytes 4 (len * 4 + 3)

/-- `Encoder::encode`: the bytes appended to the buffer. -/
def encode (c : BytesCodec) (data : Bytes) : Except CodecError Bytes :=
  if c.raw then .ok data
  else if data.length ≤ maxPayload then .ok (header data.length ++ data)
  else .error .overflow

/-- What a header of `k + 1` bytes tells the decoder. -/
theorem head_toLeBytes {k len : Nat} (hk : k < 4) (h : len * 4 + k < 256 ^ (k + 1)) :
    ∃ b bs, toLeBytes (k + 1) (len * 4 + k) = b :: bs ∧
      headLen b = (toLeBytes (k + 1) (len * 4 + k)).length ∧
      ofLeBytes (toLeBytes (k + 1) (len * 4 + k)) / 4 = len := by
  refine ⟨_, _, rfl, ?_, ?_⟩
  · rw [length_toLeBytes]
    simp only [headLen, UInt8.toNat_ofNat']
    omega
  · rw [ofLeBytes_toLeBytes h]
    omega

theorem header_spec {len : Nat} (h : len ≤ maxPayload) :
    ∃ b bs, header len = b :: bs ∧ headLen b = (header len).length ∧
      ofLeBytes (header len) / 4 = len := by
  unfold maxPayload at h
  unfold header
  split_ifs with h₁ h₂ h₃
  · exact head_toLeBytes (k := 0) (by decide) (by omega)
  · exact head_toLeBytes (k := 1) (by decide) (by omega)
  · exact head_toLeBytes (k := 2) (by decide) (by omega)
  · exact head_toLeBytes (k := 3) (by decide) (by omega)

/-- The bytes of a frame. -/
def frame (data : Bytes) : Bytes := header data.length ++ data

theorem encode_framed {c : BytesCodec} (hc : c.raw = false) {data : Bytes}
    (h : data.length ≤ maxPayload) : c.encode data = .ok (frame data) := by
  simp only [encode, hc, Bool.false_eq_true, if_false, if_pos h]
  rfl

theorem encode_raw {c : BytesCodec} (hc : c.raw = true) (data : Bytes) :
    c.encode data = .ok data := by
  simp only [encode, hc, if_true]

/-- The frames `fs` and then the bytes `payload` are what lies ahead of the decoder. In
the middle of a frame its header is gone already. -/
def Unread (c : BytesCodec) (ahead : Bytes) (fs : List Bytes) (payload : Bytes) : Prop :=
  match c.state with
  | .head => ahead = fs.flatMap frame ++ payload
  | .data n => ∃ f rest, fs = f :: rest ∧ f.length = n ∧
      ahead = f ++ (rest.flatMap frame ++ payload)

/-- The frames a codec lets through. -/
def Fits (c : BytesCodec) (f : Bytes) : Prop := f.length ≤ maxPayload ∧ f.length ≤ c.maxPacketLength

variable {c : BytesCodec} {buf net payload ahead : Bytes} {fs : List Bytes}

theorem split_arrived {part rest : Bytes} (h : buf ++ net = part ++ rest)
    (hle : part.length ≤ buf.length) :
    buf.take part.length = part ∧ buf.drop part.length ++ net = rest := by
  have ht := congrArg (List.take part.length) h
  have hd := congrArg (List.drop part.length) h
  rw [List.take_append_of_le_length hle, List.take_left] at ht
  rw [List.drop_append_of_le_length hle, List.drop_left] at hd
  exact ⟨ht, hd⟩

/-- What one call of `decode` on a framed stream may give. -/
inductive Decoded (c : BytesCodec) (net payload : Bytes) (fs : List Bytes) :
    BytesCodec × Bytes × Except CodecError (Option Bytes) → Prop
  | waits {c' : BytesCodec} {buf' : Bytes} : c'.raw = c.raw →
      c'.maxPacketLength = c.maxPacketLength → Unread c' (buf' ++ net) fs payload →
      Decoded c net payload fs (c', buf', .ok none)
  | reads {c' : BytesCodec} {buf' f : Bytes} {rest : List Bytes} : fs = f :: rest →
      c'.raw = c.raw → c'.maxPacketLength = c.maxPacketLength → c'.state = .head →
      Unread c' (buf' ++ net) rest payload → Decoded c net payload fs (c', buf', .ok (some f))

theorem decodeData_spec {f : Bytes} {rest : List Bytes}
    (h : buf ++ net = f ++ (rest.flatMap frame ++ payload)) :
    Decoded c net payload (f :: rest) ((c.decodeData f.length buf).1,
      (c.decodeData f.length buf).2.1, .ok (c.decodeData f.length buf).2.2) := by
  unfold decodeData
  split_ifs with hlen
  · exact .waits rfl rfl ⟨f, rest, rfl, rfl, h⟩
  · obtain ⟨ht, hd⟩ := split_arrived h (by omega)
    dsimp only
    rw [ht]
    exact .reads rfl rfl rfl rfl hd

/-- The header of the first frame is read once all of it has arrived. -/
theorem decodeHead_spec {f : Bytes} {rest : List Bytes} (hf : c.Fits f)
    (h : buf ++ net = (f :: rest).flatMap frame ++ payload) :
    c.decodeHead buf = (buf, .ok none) ∨
      ∃ buf', c.decodeHead buf = (buf', .ok (some f.length)) ∧
        buf' ++ net = f ++ (rest.flatMap frame ++ payload) := by
  have hsplit : buf ++ net = header f.length ++ (f ++ (rest.flatMap frame ++ payload)) := by
    rw [h, List.flatMap_cons, frame]
    simp only [List.append_assoc]
  obtain ⟨b, bs, hb, hlen, hval⟩ := header_spec hf.1
  cases buf with
  | nil => exact .inl rfl
  | cons b' buf =>
    have hb' : b' = b := by
      rw [hb] at hsplit
      exact (List.cons.inj hsplit).1
    subst hb'
    by_cases hshort : (b' :: buf).length < headLen b'
    · left
      simp only [decodeHead, if_pos hshort]
    · right
      obtain ⟨ht, hd⟩ := split_arrived hsplit (by omega)
      refine ⟨_, ?_, hd⟩
      have hmax : ¬ c.maxPacketLength < f.length := Nat.not_lt.mpr hf.2
      simp only [decodeHead, if_neg hshort]
      rw [hlen, ht, hval, if_neg hmax]

/-- A framed decoder gives the frames in their order, and nothing of what is behind them
as long as a frame is to come. -/
theorem decode_spec (hraw : c.raw = false) (hfits : ∀ f ∈ fs, c.Fits f)
    (hend : fs = [] → payload = []) (h : Unread c (buf ++ net) fs payload) :
    Decoded c net payload fs (c.decode buf) := by
  simp only [decode, hraw, Bool.false_eq_true, if_false]
  unfold Unread at h
  cases hstate : c.state with
  | data n =>
    rw [hstate] at h
    obtain ⟨f, rest, rfl, rfl, h⟩ := h
    exact decodeData_spec h
  | head =>
    rw [hstate] at h
    have hkeep : Decoded c net payload fs (c, buf, .ok none) :=
      .waits rfl rfl (by simpa only [Unread, hstate] using h)
    cases fs with
    | nil =>
      have hnil : buf ++ net = [] := by simpa [hend rfl] using h
      have hbuf : buf = [] := (List.append_eq_nil_iff.mp hnil).1
      subst hbuf
      exact hkeep
    | cons f rest =>
      rcases decodeHead_spec (hfits f List.mem_cons_self) h with hd | ⟨buf', hd, h'⟩
      · simp only [hd]
        exact hkeep
      · simp only [hd]
        exact decodeData_spec h'

theorem decode_raw (hraw : c.raw = true) :
    c.decode buf = (c, [], .ok (if buf.isEmpty then none else some buf)) := by
  cases buf with
  | nil => simp [decode, hraw]
  | cons b buf => simp [decode, hraw]

theorem Unread.append_payload (h : Unread c ahead fs payload) (more : Bytes) :
    Unread c (ahead ++ more) fs (payload ++ more) := by
  unfold Unread at h ⊢
  cases hstate : c.state with
  | head =>
    rw [hstate] at h
    simp only [h, List.append_assoc]
  | data n =>
    rw [hstate] at h
    obtain ⟨f, rest, hfs, hn, h⟩ := h
    exact ⟨f, rest, hfs, hn, by simp only [h, List.append_assoc]⟩

theorem Unread.append_frame (h : Unread c ahead fs []) (f : Bytes) :
    Unread c (ahead ++ frame f) (fs ++ [f]) [] := by
  unfold Unread at h ⊢
  cases hstate : c.state with
  | head =>
    rw [hstate] at h
    simp [h]
  | data n =>
    rw [hstate] at h
    obtain ⟨g, rest, rfl, hn, h⟩ := h
    exact ⟨g, rest ++ [f], rfl, hn, by simp [h]⟩

end BytesCodec

end RustDesk
