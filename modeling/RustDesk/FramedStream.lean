import RustDesk.BytesCodec

/-!
# Secured streams

`FramedStream` is a TCP connection with its codec, the bytes read from the socket and not
decoded yet, and the session key if the stream is secured. `set_raw` gives up the frames
and the key together.

`Link` says what lies between a stream that is written and the stream that reads it at the
other end: the messages that are still to be read, oldest first, and the raw bytes behind
them.
-/

namespace RustDesk

/-- `sodiumoxide::crypto::secretbox` with the two facts its callers rely on. -/
structure SecretBox where
  Key : Type
  sealBox : Bytes → Bytes → Key → Bytes
  openBox : Bytes → Bytes → Key → Option Bytes
  openBox_sealBox : ∀ m nonce key, openBox (sealBox m nonce key) nonce key = some m
  length_sealBox : ∀ m nonce key, (sealBox m nonce key).length = m.length + 16

/-- A box whose tag is the start of its key. -/
def tagBox : SecretBox where
  Key := Bytes
  sealBox m _ k := (k ++ List.replicate 16 0).take 16 ++ m
  openBox c _ k := if c.take 16 = (k ++ List.replicate 16 0).take 16 then some (c.drop 16) else none
  openBox_sealBox m _ k := by simp
  length_sealBox m _ k := by
    simp
    omega

instance decidableEqTagBoxKey : DecidableEq tagBox.Key := inferInstanceAs (DecidableEq Bytes)

def bytesKey (k : Bytes) : tagBox.Key := k

def getNonce (seqnum : UInt64) : Bytes := toLeBytes 8 seqnum.toNat ++ List.replicate 16 0

theorem getNonce_inj {m n : UInt64} (h : getNonce m = getNonce n) : m = n := by
  have hbytes : toLeBytes 8 m.toNat = toLeBytes 8 n.toNat := List.append_cancel_right h
  have hlt : ∀ n : UInt64, n.toNat < 256 ^ 8 := fun n => n.toNat_lt
  have hnat := congrArg ofLeBytes hbytes
  rw [ofLeBytes_toLeBytes (hlt m), ofLeBytes_toLeBytes (hlt n)] at hnat
  exact UInt64.toNat_inj.mp hnat

/-- `Encrypt(key, sent, received)` -/
structure Encrypt (B : SecretBox) where
  key : B.Key
  sent : UInt64 := 0
  received : UInt64 := 0

variable {B : SecretBox}

namespace Encrypt

def enc (data : Bytes) (e : Encrypt B) : Encrypt B × Bytes :=
  ({ e with sent := e.sent + 1 }, B.sealBox data (getNonce (e.sent + 1)) e.key)

/-- A frame of one byte or none is let through as it is, and not counted. -/
def dec (bytes : Bytes) (e : Encrypt B) : Encrypt B × Option Bytes :=
  if bytes.length ≤ 1 then (e, some bytes)
  else ({ e with received := e.received + 1 },
    B.openBox bytes (getNonce (e.received + 1)) e.key)

end Encrypt

structure FramedStream (B : SecretBox) where
  codec : BytesCodec := {}
  buffer : Bytes := []
  encrypt : Option (Encrypt B) := none

inductive StreamError
  | codec (e : CodecError)
  | decryption
  deriving DecidableEq, Repr

namespace FramedStream

def setKey (key : B.Key) (s : FramedStream B) : FramedStream B :=
  { s with encrypt := some { key := key } }

def setRaw (s : FramedStream B) : FramedStream B :=
  { s with codec := s.codec.setRaw, encrypt := none }

/-- `send_bytes`: what reaches the socket. A frame that is too long is not written. -/
def sendBytes (bytes : Bytes) (s : FramedStream B) : Bytes :=
  match s.codec.encode bytes with
  | .ok out => out
  | .error _ => []

/-- `send_raw`, the body of `send` for a serialized message. -/
def sendRaw (msg : Bytes) (s : FramedStream B) : FramedStream B × Bytes :=
  match s.encrypt with
  | some e => ({ s with encrypt := some (e.enc msg).1 }, s.sendBytes (e.enc msg).2)
  | none => (s, s.sendBytes msg)

/-- The socket gave more bytes. -/
def arrive (bytes : Bytes) (s : FramedStream B) : FramedStream B :=
  { s with buffer := s.buffer ++ bytes }

/-- `next` on what has arrived; `none` waits for more. -/
def next (s : FramedStream B) : FramedStream B × Option (Except StreamError Bytes) :=
  match s.codec.decode s.buffer with
  | (codec, buffer, .error e) => ({ s with codec, buffer }, some (.error (.codec e)))
  | (codec, buffer, .ok none) => ({ s with codec, buffer }, none)
  | (codec, buffer, .ok (some bytes)) =>
    match s.encrypt with
    | none => ({ s with codec, buffer }, some (.ok bytes))
    | some e =>
      match e.dec bytes with
      | (e, some plain) => ({ s with codec, buffer, encrypt := some e }, some (.ok plain))
      | (e, none) => ({ s with codec, buffer, encrypt := some e }, some (.error .decryption))

/-! ### Between two streams -/

/-- The longest message whose frame can be written, sealed or not. -/
def Short (msg : Bytes) : Prop := msg.length + 16 ≤ BytesCodec.maxPayload

instance (msg : Bytes) : Decidable (Short msg) := inferInstanceAs (Decidable (_ ≤ _))

/-- The frames of messages sealed one after the other. -/
def sealFrom (key : B.Key) : UInt64 → List Bytes → List Bytes
  | _, [] => []
  | n, m :: ms => B.sealBox m (getNonce (n + 1)) key :: sealFrom key (n + 1) ms

/-- The frames in which a reader finds the messages. -/
def sealed (e : Option (Encrypt B)) (ms : List Bytes) : List Bytes :=
  match e with
  | none => ms
  | some e => sealFrom e.key e.received ms

/-- Writer and reader use one key, and the writer is ahead by the messages to be read. -/
def Agree (w r : Option (Encrypt B)) (ahead : Nat) : Prop :=
  match w, r with
  | none, none => True
  | some w, some r => w.key = r.key ∧ w.sent = r.received + UInt64.ofNat ahead
  | _, _ => False

/-- The messages `ms` and then the bytes `payload` lie between the writer `w` and the
reader `r`, where `net` has not reached the reader yet. -/
structure Link (w r : FramedStream B) (net : Bytes) (ms : List Bytes) (payload : Bytes) : Prop where
  room : BytesCodec.maxPayload ≤ r.codec.maxPacketLength
  short : ∀ m ∈ ms, Short m
  framed : r.codec.raw = false →
    BytesCodec.Unread r.codec (r.buffer ++ net) (sealed r.encrypt ms) payload
  raw : r.codec.raw = true → ms = [] ∧ r.encrypt = none ∧ r.buffer ++ net = payload
  unmixed : w.codec.raw = false → payload = []
  agree : w.codec.raw = false → r.codec.raw = false → Agree w.encrypt r.encrypt ms.length

variable {w r : FramedStream B} {net payload : Bytes} {ms : List Bytes}

theorem sealFrom_append (key : B.Key) (n : UInt64) (ms : List Bytes) (m : Bytes) :
    sealFrom key n (ms ++ [m]) = sealFrom key n ms ++
      [B.sealBox m (getNonce (n + UInt64.ofNat ms.length + 1)) key] := by
  induction ms generalizing n with
  | nil => simp [sealFrom]
  | cons a ms ih =>
    have hn : n + 1 + UInt64.ofNat ms.length = n + UInt64.ofNat (a :: ms).length := by
      rw [List.length_cons, UInt64.ofNat_add, UInt64.add_assoc, UInt64.add_comm 1]
      rfl
    simp only [List.cons_append, sealFrom, ih, hn]

theorem length_of_mem_sealFrom {key : B.Key} {n : UInt64} {f : Bytes}
    (h : f ∈ sealFrom key n ms) : ∃ m ∈ ms, f.length = m.length + 16 := by
  induction ms generalizing n with
  | nil => simp [sealFrom] at h
  | cons a ms ih =>
    simp only [sealFrom, List.mem_cons] at h
    rcases h with rfl | h
    · exact ⟨a, List.mem_cons_self, B.length_sealBox ..⟩
    · obtain ⟨m, hm, hl⟩ := ih h
      exact ⟨m, List.mem_cons_of_mem a hm, hl⟩

theorem fits_sealed {c : BytesCodec} (hroom : BytesCodec.maxPayload ≤ c.maxPacketLength)
    {e : Option (Encrypt B)} (hshort : ∀ m ∈ ms, Short m) : ∀ f ∈ sealed e ms, c.Fits f := by
  have hfits : ∀ {f : Bytes}, f.length ≤ BytesCodec.maxPayload → c.Fits f := fun h =>
    ⟨h, h.trans hroom⟩
  intro f hf
  cases e with
  | none =>
    have := hshort f hf
    exact hfits (by unfold Short at this; omega)
  | some e =>
    obtain ⟨m, hm, hl⟩ := length_of_mem_sealFrom hf
    have := hshort m hm
    exact hfits (by unfold Short at this; omega)

theorem Link.sendRaw (h : Link w r net ms payload) (hw : w.codec.raw = false)
    (hr : r.codec.raw = false) {msg : Bytes} (hmsg : Short msg) :
    Link (w.sendRaw msg).1 r (net ++ (w.sendRaw msg).2) (ms ++ [msg]) [] ∧
      (w.sendRaw msg).1.codec = w.codec ∧ (w.sendRaw msg).1.buffer = w.buffer := by
  obtain rfl := h.unmixed hw
  have hshort : ∀ m ∈ ms ++ [msg], Short m := by
    intro m hm
    rcases List.mem_append.mp hm with hm | hm
    · exact h.short m hm
    · rwa [List.mem_singleton.mp hm]
  have hnet : ∀ out : Bytes, r.buffer ++ (net ++ out) = r.buffer ++ net ++ out := fun out =>
    (List.append_assoc ..).symm
  have hagree := h.agree hw hr
  have hunread := h.framed hr
  unfold Agree at hagree
  unfold FramedStream.sendRaw sendBytes
  unfold Short at hmsg
  cases hwe : w.encrypt with
  | none =>
    cases hre : r.encrypt with
    | some e => simp [hwe, hre] at hagree
    | none =>
      dsimp only
      rw [BytesCodec.encode_framed hw (by omega)]
      refine ⟨⟨h.room, hshort, fun _ => ?_, by simp [hr], fun _ => rfl, fun _ _ => ?_⟩, rfl, rfl⟩
      · rw [hnet, hre]
        rw [hre] at hunread
        exact hunread.append_frame msg
      · simp only [Agree, hwe, hre]
  | some e =>
    cases hre : r.encrypt with
    | none => simp [hwe, hre] at hagree
    | some e' =>
      obtain ⟨hkey, hsent⟩ : e.key = e'.key ∧ e.sent = e'.received + UInt64.ofNat ms.length := by
        simpa only [hwe, hre] using hagree
      dsimp only [Encrypt.enc]
      rw [BytesCodec.encode_framed hw (by rw [B.length_sealBox]; omega)]
      refine ⟨⟨h.room, hshort, fun _ => ?_, by simp [hr], fun _ => rfl, fun _ _ => ?_⟩, rfl, rfl⟩
      · rw [hnet, hre]
        rw [hre] at hunread
        simp only [sealed] at hunread ⊢
        rw [sealFrom_append, ← hsent, ← hkey]
        rw [← hkey] at hunread
        exact hunread.append_frame _
      · simp only [Agree, hre]
        refine ⟨hkey, ?_⟩
        rw [hsent, List.length_append, List.length_singleton, UInt64.ofNat_add, UInt64.add_assoc]
        rfl

theorem Link.sendBytes (h : Link w r net ms payload) (hw : w.codec.raw = true) (bytes : Bytes) :
    Link w r (net ++ w.sendBytes bytes) ms (payload ++ bytes) := by
  have hout : w.sendBytes bytes = bytes := by
    unfold FramedStream.sendBytes
    rw [BytesCodec.encode_raw hw]
  rw [hout]
  refine ⟨h.room, h.short, fun hr => ?_, fun hr => ?_, by simp [hw], by simp [hw]⟩
  · rw [← List.append_assoc]
    exact (h.framed hr).append_payload bytes
  · obtain ⟨hms, he, hp⟩ := h.raw hr
    exact ⟨hms, he, by rw [← List.append_assoc, hp]⟩

theorem Link.arrive (h : Link w r net ms payload) (n : Nat) :
    Link w (r.arrive (net.take n)) (net.drop n) ms payload := by
  have hnet : (r.arrive (net.take n)).buffer ++ net.drop n = r.buffer ++ net := by
    simp [FramedStream.arrive]
  refine ⟨h.room, h.short, fun hr => ?_, fun hr => ?_, h.unmixed, h.agree⟩
  · rw [hnet]
    exact h.framed hr
  · rw [hnet]
    exact h.raw hr

/-- What `next` gives on a framed stream. -/
inductive Read (w r : FramedStream B) (net : Bytes) (ms : List Bytes) (payload : Bytes) :
    FramedStream B × Option (Except StreamError Bytes) → Prop
  | waits {r' : FramedStream B} : r'.codec.raw = r.codec.raw → Link w r' net ms payload →
      Read w r net ms payload (r', none)
  | message {r' : FramedStream B} {m : Bytes} {rest : List Bytes} : ms = m :: rest →
      r'.codec.raw = r.codec.raw → Link w r' net rest payload →
      Read w r net ms payload (r', some (.ok m))

theorem Link.waits (h : Link w r net ms payload) (hr : r.codec.raw = false) {c : BytesCodec}
    {buf : Bytes} (hraw : c.raw = r.codec.raw)
    (hmax : c.maxPacketLength = r.codec.maxPacketLength)
    (hunread : c.Unread (buf ++ net) (sealed r.encrypt ms) payload) :
    Link w { r with codec := c, buffer := buf } net ms payload :=
  ⟨by rw [hmax]; exact h.room, h.short, fun _ => hunread, by simp [hraw, hr], h.unmixed,
    fun hw _ => h.agree hw hr⟩

theorem Link.next (h : Link w r net ms payload) (hr : r.codec.raw = false)
    (hend : ms = [] → payload = []) : Read w r net ms payload r.next := by
  have hfits := fits_sealed (c := r.codec) (e := r.encrypt) h.room h.short
  have hend' : sealed r.encrypt ms = [] → payload = [] := by
    intro hs
    apply hend
    cases ms with
    | nil => rfl
    | cons m ms => cases he : r.encrypt <;> simp [sealed, sealFrom, he] at hs
  have hdec := BytesCodec.decode_spec hr hfits hend' (h.framed hr)
  unfold FramedStream.next
  generalize r.codec.decode r.buffer = d at hdec
  cases hdec with
  | waits hraw hmax hunread => exact .waits hraw (h.waits hr hraw hmax hunread)
  | @reads c buf f rest hfs hraw hmax hstate hunread =>
    have hagree := fun hw => h.agree hw hr
    cases ms with
    | nil => cases he : r.encrypt <;> simp [sealed, sealFrom, he] at hfs
    | cons m ms =>
      have hshort : ∀ x ∈ ms, Short x := fun x hx => h.short x (List.mem_cons_of_mem m hx)
      cases he : r.encrypt with
      | none =>
        rw [he] at hfs
        simp only [sealed, List.cons.injEq] at hfs
        obtain ⟨rfl, rfl⟩ := hfs
        refine .message rfl hraw ⟨by rw [hmax]; exact h.room, hshort, fun _ => ?_,
          by simp [hraw, hr], h.unmixed, fun hw _ => ?_⟩
        · simpa only [sealed, he] using hunread
        · have := hagree hw
          cases hwe : w.encrypt <;> simp_all [Agree]
      | some e =>
        rw [he] at hfs
        simp only [sealed, sealFrom, List.cons.injEq] at hfs
        obtain ⟨rfl, rfl⟩ := hfs
        have hlong : ¬ (B.sealBox m (getNonce (e.received + 1)) e.key).length ≤ 1 := by
          rw [B.length_sealBox]
          omega
        simp only [Encrypt.dec, if_neg hlong, B.openBox_sealBox]
        refine .message rfl hraw ⟨by rw [hmax]; exact h.room, hshort, fun _ => hunread,
          by simp [hraw, hr], h.unmixed, fun hw _ => ?_⟩
        have hw' := hagree hw
        cases hwe : w.encrypt with
        | none => simp [Agree, hwe, he] at hw'
        | some e' =>
          simp only [Agree, hwe, he] at hw' ⊢
          refine ⟨hw'.1, ?_⟩
          rw [hw'.2, List.length_cons, UInt64.ofNat_add, UInt64.add_comm (UInt64.ofNat ms.length),
            ← UInt64.add_assoc]
          rfl

theorem Link.next_raw (h : Link w r net ms payload) (hr : r.codec.raw = true) :
    r.next = (r, none) ∨
      ∃ rest, r.next = ({ r with buffer := [] }, some (.ok r.buffer)) ∧
        payload = r.buffer ++ rest ∧ Link w { r with buffer := [] } net [] rest := by
  obtain ⟨rfl, he, hp⟩ := h.raw hr
  have hdec : r.codec.decode r.buffer =
      (r.codec, [], .ok (if r.buffer.isEmpty then none else some r.buffer)) :=
    BytesCodec.decode_raw hr
  unfold FramedStream.next
  rw [hdec]
  by_cases hbuf : r.buffer = []
  · left
    simp only [hbuf, List.isEmpty_nil, if_true]
    rw [← hbuf]
  · right
    have hne : r.buffer.isEmpty = false := by simpa using hbuf
    refine ⟨net, ?_, hp.symm, h.room, h.short, by simp [hr], fun _ => ⟨rfl, he, rfl⟩,
      fun hw => ?_, by simp [hr]⟩
    · simp only [hne, Bool.false_eq_true, if_false, he]
    · have hnil : r.buffer ++ net = [] := hp.trans (h.unmixed hw)
      exact (List.append_eq_nil_iff.mp hnil).2

theorem Link.setRaw_writer (h : Link w r net ms payload) : Link w.setRaw r net ms payload := by
  have hraw : w.setRaw.codec.raw = true := rfl
  exact ⟨h.room, h.short, h.framed, h.raw, by simp [hraw], by simp [hraw]⟩

/-- The reader goes raw when every message was read: what is in its buffer then is raw. -/
theorem Link.setRaw_reader (h : Link w r net [] payload) : Link w r.setRaw net [] payload := by
  have hraw : r.setRaw.codec.raw = true := rfl
  refine ⟨h.room, h.short, by simp [hraw], fun _ => ⟨rfl, rfl, ?_⟩, h.unmixed, by simp [hraw]⟩
  change r.buffer ++ net = payload
  cases hr : r.codec.raw with
  | true => exact (h.raw hr).2.2
  | false =>
    have hunread := h.framed hr
    have hnil : sealed r.encrypt [] = [] := by cases r.encrypt <;> rfl
    rw [hnil] at hunread
    unfold BytesCodec.Unread at hunread
    cases hstate : r.codec.state with
    | head =>
      rw [hstate] at hunread
      simpa using hunread
    | data n =>
      rw [hstate] at hunread
      obtain ⟨f, rest, hfs, -⟩ := hunread
      cases hfs

/-! ### The two directions of one stream -/

/-- What writing depends on. -/
def writing (s : FramedStream B) : Bool × Option (B.Key × UInt64) :=
  (s.codec.raw, s.encrypt.map fun e => (e.key, e.sent))

/-- What reading depends on. -/
def reading (s : FramedStream B) : BytesCodec × Bytes × Option (B.Key × UInt64) :=
  (s.codec, s.buffer, s.encrypt.map fun e => (e.key, e.received))

variable {w' r' : FramedStream B}

theorem sealed_congr {e e' : Option (Encrypt B)}
    (h : (e'.map fun e => (e.key, e.received)) = e.map fun e => (e.key, e.received))
    (ms : List Bytes) : sealed e' ms = sealed e ms := by
  cases e with
  | none =>
    have he' : e' = none := by simpa using h
    rw [he']
  | some e =>
    obtain ⟨x, rfl, hx⟩ := Option.map_eq_some_iff.mp h
    simp only [Prod.mk.injEq] at hx
    simp only [sealed, hx.1, hx.2]

theorem agree_congr {a a' e e' : Option (Encrypt B)} {n : Nat}
    (ha : (a'.map fun e => (e.key, e.sent)) = a.map fun e => (e.key, e.sent))
    (he : (e'.map fun e => (e.key, e.received)) = e.map fun e => (e.key, e.received))
    (h : Agree a e n) : Agree a' e' n := by
  cases a with
  | none =>
    have ha' : a' = none := by simpa using ha
    cases e with
    | none =>
      have he' : e' = none := by simpa using he
      rw [ha', he']
      exact h
    | some e => exact h.elim
  | some a =>
    obtain ⟨x, rfl, hx⟩ := Option.map_eq_some_iff.mp ha
    cases e with
    | none => exact h.elim
    | some e =>
      obtain ⟨y, rfl, hy⟩ := Option.map_eq_some_iff.mp he
      simp only [Prod.mk.injEq] at hx hy
      obtain ⟨hk, hn⟩ := h
      exact ⟨by rw [hx.1, hy.1, hk], by rw [hx.2, hy.2, hn]⟩

/-- A link does not depend on the other direction of its two streams. -/
theorem Link.congr (h : Link w r net ms payload) (hw : w'.writing = w.writing)
    (hr : r'.reading = r.reading) : Link w' r' net ms payload := by
  simp only [writing, reading, Prod.mk.injEq] at hw hr
  obtain ⟨hwraw, hwe⟩ := hw
  obtain ⟨hrc, hrb, hre⟩ := hr
  refine ⟨by rw [hrc]; exact h.room, h.short, ?_, ?_, ?_, ?_⟩
  · rw [hrc, hrb, sealed_congr hre]
    exact h.framed
  · rw [hrc, hrb]
    intro hraw
    obtain ⟨hms, he, hp⟩ := h.raw hraw
    refine ⟨hms, ?_, hp⟩
    rw [he] at hre
    simpa using hre
  · rw [hwraw]
    exact h.unmixed
  · rw [hwraw, hrc]
    exact fun h₁ h₂ => agree_congr hwe hre (h.agree h₁ h₂)

theorem reading_sendRaw (msg : Bytes) (s : FramedStream B) :
    (s.sendRaw msg).1.reading = s.reading := by
  unfold sendRaw
  cases he : s.encrypt with
  | none => rfl
  | some e => simp [reading, he, Encrypt.enc]

theorem writing_arrive (bytes : Bytes) (s : FramedStream B) :
    (s.arrive bytes).writing = s.writing := rfl

theorem raw_decode (c : BytesCodec) (src : Bytes) : (c.decode src).1.raw = c.raw := by
  unfold BytesCodec.decode
  split
  · split <;> rfl
  · have hdata : ∀ n src, (c.decodeData n src).1.raw = c.raw := by
      intro n src
      unfold BytesCodec.decodeData
      split <;> rfl
    split
    · split
      · rfl
      · rfl
      · exact hdata _ _
    · exact hdata _ _

theorem writing_next (s : FramedStream B) : s.next.1.writing = s.writing := by
  have hraw := raw_decode s.codec s.buffer
  unfold next
  generalize s.codec.decode s.buffer = d at hraw
  obtain ⟨codec, buffer, res⟩ := d
  have hkeep : ∀ e', (e'.map fun e => (e.key, e.sent)) =
      (s.encrypt.map fun e => (e.key, e.sent)) →
      ({ s with codec, buffer, encrypt := e' } : FramedStream B).writing = s.writing := by
    intro e' he'
    simp only [writing, Prod.mk.injEq]
    exact ⟨hraw, he'⟩
  cases res with
  | error e => exact hkeep _ rfl
  | ok o =>
    cases o with
    | none => exact hkeep _ rfl
    | some bytes =>
      cases he : s.encrypt with
      | none => exact hkeep _ (by rw [he])
      | some e =>
        have hdec : ((e.dec bytes).1.key, (e.dec bytes).1.sent) = (e.key, e.sent) := by
          unfold Encrypt.dec
          split <;> rfl
        dsimp only
        generalize e.dec bytes = x at hdec
        obtain ⟨e', res⟩ := x
        have he' : (some e').map (fun e => (e.key, e.sent)) =
            s.encrypt.map fun e => (e.key, e.sent) := by
          rw [he]
          exact congrArg some hdec
        cases res with
        | none => exact hkeep _ he'
        | some plain => exact hkeep _ he'

end FramedStream

end RustDesk
