import RustDesk.BytesCodec

/-!
# Frames from a stream cut into chunks

The reader of a connection appends each chunk to its buffer and then calls `decode` until
it returns no frame. What comes out depends on the bytes alone: a call that waits for more
bytes has moved the codec to a state from which the longer buffer is decoded just as it is
from the state before, and a call that reads a frame or fails never looks behind the bytes
it has.
-/

namespace RustDesk
namespace BytesCodec

/-- What a series of calls of `decode` leaves: the frames it gave and the error that ended
it, if one did. -/
structure Drained where
  codec : BytesCodec
  buf : Bytes
  frames : List Bytes
  error : Option CodecError
  deriving DecidableEq, Repr

def Drained.after (fs : List Bytes) (r : Drained) : Drained := { r with frames := fs ++ r.frames }

theorem Drained.after_after (fs gs : List Bytes) (r : Drained) :
    (r.after gs).after fs = r.after (fs ++ gs) := by
  simp [Drained.after]

/-- A frame costs at least a byte of the buffer or, behind a header that has been read, the
state of waiting for its body. -/
def weight (c : BytesCodec) (buf : Bytes) : Nat :=
  2 * buf.length + (if c.state = .head then 0 else 1)

variable {c c' : BytesCodec} {buf buf' more : Bytes} {f : Bytes} {e : CodecError}

theorem decodeData_append {n : Nat} (h : n ≤ buf.length) :
    c.decodeData n (buf ++ more) =
      ({ c with state := .head }, buf.drop n ++ more, some (buf.take n)) := by
  have hlen : ¬ (buf ++ more).length < n := by
    rw [List.length_append]
    omega
  rw [decodeData, if_neg hlen, List.drop_append_of_le_length h, List.take_append_of_le_length h]

theorem decodeHead_kept {r : Except CodecError (Option Nat)} (h : c.decodeHead buf = (buf', r))
    (hr : ∀ n, r ≠ .ok (some n)) : buf' = buf := by
  cases buf with
  | nil =>
    cases h
    rfl
  | cons b bs =>
    dsimp only [decodeHead] at h
    split_ifs at h with hshort hbig
    · exact (congrArg Prod.fst h).symm
    · exact (congrArg Prod.fst h).symm
    · exact absurd (congrArg Prod.snd h).symm (hr _)

theorem decodeHead_some {n : Nat} (h : c.decodeHead buf = (buf', .ok (some n))) :
    buf'.length < buf.length := by
  cases buf with
  | nil => cases h
  | cons b bs =>
    dsimp only [decodeHead] at h
    split_ifs at h with hshort hbig
    · cases h
    · cases h
    · have hbuf : (b :: bs).drop (headLen b) = buf' := congrArg Prod.fst h
      rw [← hbuf, List.length_drop]
      simp only [headLen, List.length_cons]
      omega

theorem decodeHead_append {r : Except CodecError (Option Nat)} (h : c.decodeHead buf = (buf', r))
    (hr : r ≠ .ok none) (more : Bytes) : c.decodeHead (buf ++ more) = (buf' ++ more, r) := by
  cases buf with
  | nil => exact absurd (congrArg Prod.snd h).symm hr
  | cons b bs =>
    dsimp only [decodeHead] at h
    by_cases hshort : (b :: bs).length < headLen b
    · rw [if_pos hshort] at h
      exact absurd (congrArg Prod.snd h).symm hr
    · rw [if_neg hshort] at h
      have hlen : headLen b ≤ (b :: bs).length := by omega
      have hlong : ¬ (b :: bs ++ more).length < headLen b := by
        rw [List.length_append]
        omega
      have htake : (b :: bs ++ more).take (headLen b) = (b :: bs).take (headLen b) :=
        List.take_append_of_le_length hlen
      have hdrop : (b :: bs ++ more).drop (headLen b) = (b :: bs).drop (headLen b) ++ more :=
        List.drop_append_of_le_length hlen
      rw [List.cons_append] at htake hdrop hlong ⊢
      rw [decodeHead, if_neg hlong, htake, hdrop]
      dsimp only
      split_ifs at h ⊢ with hbig
      · cases h
        rfl
      · cases h
        rfl

/-- The header of a frame of `n` bytes has been read, by this call or before it, and `rest`
is what the buffer holds behind it. -/
def Body (c : BytesCodec) (buf : Bytes) (n : Nat) (rest : Bytes) : Prop :=
  (c.state = .head ∧ c.decodeHead buf = (rest, .ok (some n))) ∨ (c.state = .data n ∧ rest = buf)

inductive Call (c : BytesCodec) (buf : Bytes) : Prop
  | refuses (e : CodecError) : c.state = .head → c.decodeHead buf = (buf, .error e) →
      c.decode buf = (c, buf, .error e) → Call c buf
  | waits : c.state = .head → c.decode buf = (c, buf, .ok none) → Call c buf
  | body (n : Nat) (rest : Bytes) : Body c buf n rest → Call c buf

theorem Body.decode {n : Nat} {rest : Bytes} (hraw : c.raw = false) (h : Body c buf n rest) :
    c.decode buf = ((c.decodeData n rest).1, (c.decodeData n rest).2.1,
      .ok (c.decodeData n rest).2.2) := by
  rcases h with ⟨hstate, hhead⟩ | ⟨hstate, rfl⟩
  · simp only [BytesCodec.decode, hraw, Bool.false_eq_true, if_false, hstate, hhead]
  · simp only [BytesCodec.decode, hraw, Bool.false_eq_true, if_false, hstate]

theorem Body.append {n : Nat} {rest : Bytes} (h : Body c buf n rest) (more : Bytes) :
    Body c (buf ++ more) n (rest ++ more) := by
  rcases h with ⟨hstate, hhead⟩ | ⟨hstate, rfl⟩
  · exact .inl ⟨hstate, decodeHead_append hhead (by simp) more⟩
  · exact .inr ⟨hstate, rfl⟩

theorem call (hraw : c.raw = false) (buf : Bytes) : Call c buf := by
  cases hstate : c.state with
  | data n => exact .body n buf (.inr ⟨hstate, rfl⟩)
  | head =>
    match hr : c.decodeHead buf with
    | (rest, .error e) =>
      have hrest : rest = buf := decodeHead_kept hr (by simp)
      subst hrest
      refine .refuses e hstate hr ?_
      simp only [decode, hraw, Bool.false_eq_true, if_false, hstate, hr]
    | (rest, .ok none) =>
      have hrest : rest = buf := decodeHead_kept hr (by simp)
      subst hrest
      refine .waits hstate ?_
      simp only [decode, hraw, Bool.false_eq_true, if_false, hstate, hr]
    | (rest, .ok (some n)) => exact .body n rest (.inl ⟨hstate, hr⟩)

theorem decode_append_some (hraw : c.raw = false) (h : c.decode buf = (c', buf', .ok (some f)))
    (more : Bytes) : c.decode (buf ++ more) = (c', buf' ++ more, .ok (some f)) := by
  cases call hraw buf with
  | refuses e _ _ hd =>
    rw [hd] at h
    cases h
  | waits _ hd =>
    rw [hd] at h
    cases h
  | body n rest hb =>
    rw [hb.decode hraw] at h
    rw [(hb.append more).decode hraw]
    unfold decodeData at h
    split_ifs at h with hlen
    · cases h
    · cases h
      rw [decodeData_append (by omega)]

theorem decode_append_error (hraw : c.raw = false) (h : c.decode buf = (c', buf', .error e))
    (more : Bytes) : c.decode (buf ++ more) = (c, buf ++ more, .error e) := by
  cases call hraw buf with
  | refuses e' hstate hhead hd =>
    rw [hd] at h
    cases h
    have hmore := decodeHead_append hhead (by simp) more
    simp only [decode, hraw, Bool.false_eq_true, if_false, hstate, hmore]
  | waits _ hd =>
    rw [hd] at h
    cases h
  | body n rest hb =>
    rw [hb.decode hraw] at h
    cases h

/-- A call that waits may have read the header; the longer buffer is decoded the same from
where it left off. -/
theorem decode_append_none (hraw : c.raw = false) (h : c.decode buf = (c', buf', .ok none))
    (more : Bytes) : c.decode (buf ++ more) = c'.decode (buf' ++ more) := by
  cases call hraw buf with
  | refuses e _ _ hd =>
    rw [hd] at h
    cases h
  | waits _ hd =>
    rw [hd] at h
    cases h
    rfl
  | body n rest hb =>
    rw [hb.decode hraw] at h
    unfold decodeData at h
    split_ifs at h with hlen
    · cases h
      have hlater : Body { c with state := .data n } (rest ++ more) n (rest ++ more) :=
        .inr ⟨rfl, rfl⟩
      rw [(hb.append more).decode hraw, hlater.decode (by exact hraw)]
      rfl
    · cases h

theorem decode_error_kept (h : c.decode buf = (c', buf', .error e)) : c' = c ∧ buf' = buf := by
  cases hraw : c.raw with
  | true =>
    rw [decode_raw hraw] at h
    cases h
  | false =>
    have hd := decode_append_error hraw h []
    rw [List.append_nil, h] at hd
    cases hd
    exact ⟨rfl, rfl⟩

theorem decodeData_codec (c : BytesCodec) (n : Nat) (buf : Bytes) :
    (c.decodeData n buf).1.raw = c.raw ∧
      (c.decodeData n buf).1.maxPacketLength = c.maxPacketLength := by
  unfold decodeData
  split_ifs
  · exact ⟨rfl, rfl⟩
  · exact ⟨rfl, rfl⟩

theorem decode_raw_eq (hraw : c.raw = false) (buf : Bytes) : (c.decode buf).1.raw = false := by
  cases call hraw buf with
  | refuses e _ _ hd => rwa [hd]
  | waits _ hd => rwa [hd]
  | body n rest hb =>
    rw [hb.decode hraw, (decodeData_codec c n rest).1]
    exact hraw

/-- Nothing changes when `decode` is called once more after it has returned no frame. -/
theorem decode_idle (hraw : c.raw = false) (h : c.decode buf = (c', buf', .ok none)) :
    c'.decode buf' = (c', buf', .ok none) := by
  have hd := decode_append_none hraw h []
  simp only [List.append_nil] at hd
  rw [← hd, h]

theorem weight_body {n : Nat} {rest : Bytes} (h : Body c buf n rest) :
    2 * rest.length < weight c buf := by
  rcases h with ⟨hstate, hhead⟩ | ⟨hstate, rfl⟩
  · have hlt := decodeHead_some hhead
    simp only [weight, hstate, if_true]
    omega
  · simp [weight, hstate]

theorem weight_decode (h : c.decode buf = (c', buf', .ok (some f))) :
    weight c' buf' < weight c buf := by
  cases hraw : c.raw with
  | true =>
    cases buf with
    | nil =>
      rw [decode_raw hraw] at h
      cases h
    | cons b bs =>
      rw [decode_raw hraw] at h
      cases h
      simp [weight]
  | false =>
    cases call hraw buf with
    | refuses e _ _ hd =>
      rw [hd] at h
      cases h
    | waits _ hd =>
      rw [hd] at h
      cases h
    | body n rest hb =>
      have hlt := weight_body hb
      rw [hb.decode hraw] at h
      unfold decodeData at h
      split_ifs at h with hlen
      · cases h
      · cases h
        change 2 * (rest.drop n).length + 0 < weight c buf
        rw [List.length_drop]
        omega

/-- `decode` called until it returns no frame or an error. -/
def drain (c : BytesCodec) (buf : Bytes) : Drained :=
  match _h : c.decode buf with
  | (c', buf', .ok none) => ⟨c', buf', [], none⟩
  | (c', buf', .error e) => ⟨c', buf', [], some e⟩
  | (c', buf', .ok (some f)) => (drain c' buf').after [f]
termination_by weight c buf
decreasing_by exact weight_decode ‹_›

theorem drain_none (h : c.decode buf = (c', buf', .ok none)) :
    drain c buf = ⟨c', buf', [], none⟩ := by
  rw [drain]
  split <;> simp_all

theorem drain_error (h : c.decode buf = (c', buf', .error e)) :
    drain c buf = ⟨c', buf', [], some e⟩ := by
  rw [drain]
  split <;> simp_all

theorem drain_some (h : c.decode buf = (c', buf', .ok (some f))) :
    drain c buf = (drain c' buf').after [f] := by
  rw [drain]
  split <;> simp_all

/-- The rest of a stream goes on from where the part before it was left, unless that part
ended in an error. -/
def Drained.proceed (r : Drained) (go : BytesCodec → Bytes → Drained) : Drained :=
  match r.error with
  | some _ => r
  | none => (go r.codec r.buf).after r.frames

theorem Drained.proceed_after (r : Drained) (fs : List Bytes) (go : BytesCodec → Bytes → Drained) :
    (r.after fs).proceed go = (r.proceed go).after fs := by
  obtain ⟨c, buf, frames, error⟩ := r
  cases error with
  | some e => rfl
  | none => exact (Drained.after_after _ _ _).symm

/-- The same frames and the same error; the same codec and buffer too, where there was no
error. After one, bytes that follow it may or may not have arrived. -/
structure Drained.Agree (r s : Drained) : Prop where
  frames : r.frames = s.frames
  error : r.error = s.error
  codec : r.codec = s.codec
  buf : r.error = none → r.buf = s.buf

theorem Drained.Agree.after {r s : Drained} (h : r.Agree s) (fs : List Bytes) :
    (r.after fs).Agree (s.after fs) :=
  ⟨congrArg (fs ++ ·) h.frames, h.error, h.codec, h.buf⟩

theorem Drained.Agree.trans {r s t : Drained} (h : r.Agree s) (h' : s.Agree t) : r.Agree t :=
  ⟨h.frames.trans h'.frames, h.error.trans h'.error, h.codec.trans h'.codec,
    fun hr => (h.buf hr).trans (h'.buf (h.error ▸ hr))⟩

theorem Drained.Agree.symm {r s : Drained} (h : r.Agree s) : s.Agree r :=
  ⟨h.frames.symm, h.error.symm, h.codec.symm, fun hs => (h.buf (h.error.trans hs)).symm⟩

theorem drain_append (hraw : c.raw = false) (buf more : Bytes) :
    ((drain c buf).proceed fun c' buf' => drain c' (buf' ++ more)).Agree
      (drain c (buf ++ more)) := by
  -- along the calls on the shorter buffer
  induction c, buf using drain.induct with
  | case1 c buf c' buf' h =>
    have hsame : drain c (buf ++ more) = drain c' (buf' ++ more) := by
      have hd := decode_append_none hraw h more
      conv_lhs => rw [drain]
      conv_rhs => rw [drain]
      rw [hd]
    rw [drain_none h, hsame]
    exact ⟨rfl, rfl, rfl, fun _ => rfl⟩
  | case2 c buf c' buf' e h =>
    have hkept := decode_error_kept h
    rw [drain_error h, drain_error (decode_append_error hraw h more)]
    exact ⟨rfl, rfl, hkept.1, fun he => by cases he⟩
  | case3 c buf c' buf' f h ih =>
    have hraw' : c'.raw = false := by
      have hr := decode_raw_eq hraw buf
      rwa [h] at hr
    rw [drain_some h, drain_some (decode_append_some hraw h more), Drained.proceed_after]
    exact (ih hraw').after [f]

/-- The reader of a stream: each chunk is appended to the buffer, which is then drained. -/
def feed (c : BytesCodec) (buf : Bytes) : List Bytes → Drained
  | [] => ⟨c, buf, [], none⟩
  | chunk :: chunks => (drain c (buf ++ chunk)).proceed fun c' buf' => feed c' buf' chunks

/-- Nothing can be read off the buffer until more of the stream has arrived. -/
def Idle (c : BytesCodec) (buf : Bytes) : Prop :=
  c.raw = false ∧ c.decode buf = (c, buf, .ok none)

theorem drain_idle (hraw : c.raw = false) (buf : Bytes) (h : (drain c buf).error = none) :
    Idle (drain c buf).codec (drain c buf).buf := by
  induction c, buf using drain.induct with
  | case1 c buf c' buf' hd =>
    have hr := decode_raw_eq hraw buf
    rw [hd] at hr
    rw [drain_none hd]
    exact ⟨hr, decode_idle hraw hd⟩
  | case2 c buf c' buf' e hd =>
    rw [drain_error hd] at h
    cases h
  | case3 c buf c' buf' f hd ih =>
    have hr := decode_raw_eq hraw buf
    rw [hd] at hr
    rw [drain_some hd] at h ⊢
    exact ih hr h

theorem feed_agree (hidle : Idle c buf) (chunks : List Bytes) :
    (feed c buf chunks).Agree (drain c (buf ++ chunks.flatten)) := by
  induction chunks generalizing c buf with
  | nil =>
    rw [List.flatten_nil, List.append_nil, drain_none hidle.2]
    exact ⟨rfl, rfl, rfl, fun _ => rfl⟩
  | cons chunk chunks ih =>
    have hwhole := drain_append hidle.1 (buf ++ chunk) chunks.flatten
    rw [List.append_assoc, ← List.flatten_cons] at hwhole
    refine Drained.Agree.trans ?_ hwhole
    have hnext := drain_idle hidle.1 (buf ++ chunk)
    rw [feed]
    generalize drain c (buf ++ chunk) = r at hnext
    unfold Drained.proceed
    split
    · exact ⟨rfl, rfl, rfl, fun _ => rfl⟩
    · next herr => exact (ih (hnext herr)).after _

/-- A codec as `new` and `set_max_packet_length` leave it. -/
def fresh (maxPacketLength : Nat) : BytesCodec := { maxPacketLength }

theorem idle_fresh (n : Nat) : Idle (fresh n) [] := ⟨rfl, rfl⟩

/-- Any two ways of cutting a stream give the same frames and the same end; and a call that
fails leaves the codec and the buffer as they were. -/
theorem feed_independent_of_chunks (maxPacketLength : Nat) (cs ds : List Bytes)
    (h : cs.flatten = ds.flatten) :
    (feed (fresh maxPacketLength) [] cs).Agree (feed (fresh maxPacketLength) [] ds) ∧
      ∀ (c : BytesCodec) (buf : Bytes) (e : CodecError), (c.decode buf).2.2 = .error e →
        (c.decode buf).1 = c ∧ (c.decode buf).2.1 = buf := by
  refine ⟨?_, ?_⟩
  · have hds := feed_agree (idle_fresh maxPacketLength) ds
    rw [← h] at hds
    exact (feed_agree (idle_fresh maxPacketLength) cs).trans hds.symm
  · intro c buf e he
    have hd : c.decode buf = ((c.decode buf).1, (c.decode buf).2.1, .error e) := by rw [← he]
    exact decode_error_kept hd

/-- A body of two bytes and then the header of one that is too long, byte by byte and at
once. -/
theorem feed_independent_of_chunks_hostile :
    (feed (fresh 2) [] [[8], [1], [], [2], [255], [0], [0], [0]]).Agree
      (feed (fresh 2) [] [[8, 1, 2, 255, 0, 0, 0]]) :=
  (feed_independent_of_chunks 2 _ _ (by decide)).1

/-! ## The round trip -/

def encodeAll (c : BytesCodec) (buf : Bytes) : List Bytes → Except CodecError Bytes
  | [] => .ok buf
  | p :: ps => do
    let bytes ← c.encode p
    encodeAll c (buf ++ bytes) ps

theorem encodeAll_framed (hraw : c.raw = false) {ps : List Bytes}
    (h : ∀ p ∈ ps, p.length ≤ maxPayload) (buf : Bytes) :
    c.encodeAll buf ps = .ok (buf ++ ps.flatMap frame) := by
  induction ps generalizing buf with
  | nil => simp [encodeAll]
  | cons p ps ih =>
    obtain ⟨hp, hps⟩ := List.forall_mem_cons.mp h
    rw [encodeAll, encode_framed hraw hp]
    change c.encodeAll (buf ++ frame p) ps = _
    rw [ih hps, List.flatMap_cons, List.append_assoc]

theorem decodeHead_header (hf : c.Fits f) :
    c.decodeHead (header f.length) = ([], .ok (some f.length)) := by
  obtain ⟨b, bs, hb, hlen, hval⟩ := header_spec hf.1
  have hmax : ¬ c.maxPacketLength < f.length := Nat.not_lt.mpr hf.2
  rw [hb] at hlen hval ⊢
  rw [decodeHead, if_neg (by omega), hlen, List.take_length, List.drop_length, hval]
  exact if_neg hmax

theorem decode_frame (hraw : c.raw = false) (hstate : c.state = .head) (hf : c.Fits f)
    (rest : Bytes) : c.decode (frame f ++ rest) = (c, rest, .ok (some f)) := by
  have hb : Body c (frame f ++ rest) f.length (f ++ rest) := by
    left
    refine ⟨hstate, ?_⟩
    have hd := decodeHead_append (decodeHead_header hf) (by simp) (f ++ rest)
    rwa [List.nil_append, ← List.append_assoc] at hd
  rw [hb.decode hraw, decodeData_append le_rfl]
  simp only [List.drop_length, List.take_length, List.nil_append, ← hstate]

theorem drain_frames (hraw : c.raw = false) (hstate : c.state = .head) {ps : List Bytes}
    (h : ∀ p ∈ ps, c.Fits p) : drain c (ps.flatMap frame) = ⟨c, [], ps, none⟩ := by
  induction ps with
  | nil =>
    apply drain_none
    simp only [List.flatMap_nil, decode, hraw, Bool.false_eq_true, if_false, hstate, decodeHead]
  | cons p ps ih =>
    obtain ⟨hp, hps⟩ := List.forall_mem_cons.mp h
    rw [List.flatMap_cons, drain_some (decode_frame hraw hstate hp _), ih hps]
    rfl

/-- Payloads that were encoded one after the other come back in their order, however the
bytes were cut, and leave nothing behind. -/
theorem feed_encodeAll (enc : BytesCodec) (henc : enc.raw = false) (maxPacketLength : Nat)
    (ps : List Bytes) (h : ∀ p ∈ ps, p.length ≤ 0x3FFFFFFF ∧ p.length ≤ maxPacketLength) :
    ∃ bytes, enc.encodeAll [] ps = .ok bytes ∧
      ∀ chunks : List Bytes, chunks.flatten = bytes →
        feed (fresh maxPacketLength) [] chunks = ⟨fresh maxPacketLength, [], ps, none⟩ := by
  refine ⟨ps.flatMap frame, encodeAll_framed henc (fun p hp => (h p hp).1) [], ?_⟩
  intro chunks hchunks
  have hagree := feed_agree (idle_fresh maxPacketLength) chunks
  rw [List.nil_append, hchunks, drain_frames rfl rfl h] at hagree
  obtain ⟨hframes, herror, hcodec, hbuf⟩ := hagree
  generalize feed (fresh maxPacketLength) [] chunks = r at hframes herror hcodec hbuf
  obtain ⟨c, buf, frames, error⟩ := r
  cases herror
  cases hframes
  cases hcodec
  cases hbuf rfl
  rfl

/-- A payload of 70 bytes has a header of two, cut here between them. -/
theorem feed_encodeAll_two :
    ∃ bytes, encodeAll {} [] [[], List.replicate 70 7] = .ok bytes ∧
      ∀ chunks : List Bytes, chunks.flatten = bytes →
        feed (fresh 70) [] chunks = ⟨fresh 70, [], [[], List.replicate 70 7], none⟩ :=
  feed_encodeAll {} rfl 70 _ (by decide)

end BytesCodec
end RustDesk
