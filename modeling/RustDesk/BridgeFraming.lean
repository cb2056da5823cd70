import RustDesk.DecoderBridge

/-!
# The two sides of the bridge agree

Whatever one side writes is a sequence of messages that the other side reads as such: every header
passes the checks of the other side, and has the length of what follows it. The library on partial
reads then says that no order of the calls brings them out of step.
-/

namespace RustDesk.Goke

open PartialReads (Reader Reading Link Receiver)

/-- What the daemon is to receive: the hello, the parameter sets of the first unit if it has any,
and the units. -/
def expected (codec : Option CodecFormat) (units : List Bytes) : List Received :=
  let hevc := codec == some .h265
  let csd := (units.head?.bind fun first => (extractParamSets first hevc).join).toList
  (codecId codec).toList.map .hello ++ (csd ++ units).map .unit

/-- Nothing has been rejected or has panicked, and each side has read the first of the messages of
the other. As long as it reads, it has read all of them when nothing is on the way, and otherwise
one of the two can go on. -/
structure Bridge.InStep (codec : Option CodecFormat) (w : Bridge) : Prop where
  panicked : w.panicked = false
  accepted : ¬ w.up.reader.state.Rejected
  received : w.up.reader.state.received <+: expected codec w.units
  delivered : w.up.reader.state.Open → w.up.Delivered →
    w.up.reader.state.received = expected codec w.units
  progress : w.up.reader.state.Open → w.up.broken = false →
    w.up.Delivered ∨ w.Possible (.clientWrite 1) ∨ ∀ calls, w.Possible (.sessionRead 1 calls)
  acceptedBack : ¬ w.down.reader.state.Rejected
  obtained : w.down.reader.state.obtained <+: w.drain.emitted
  deliveredBack : w.down.reader.state.Open → w.down.Delivered →
    w.down.reader.state.obtained = w.drain.emitted
  progressBack : w.down.reader.state.Open → w.down.broken = false →
    w.down.Delivered ∨ w.Possible (.drainWrite 1) ∨ ∀ calls, w.Possible (.renderRead 1 calls)

/-! ### Words -/

theorem length_le32 (n : Nat) : (le32 n).length = 4 := length_toLeBytes 4 n

theorem word_zero {n : Nat} (hn : n < 2 ^ 32) (rest : Bytes) : word (le32 n ++ rest) 0 = n := by
  have htake : (le32 n ++ rest).take 4 = le32 n := List.take_left' (length_le32 n)
  rw [word, Nat.mul_zero, List.drop_zero, htake]
  exact ofLeBytes_toLeBytes hn

theorem word_succ (n : Nat) (rest : Bytes) (i : Nat) :
    word (le32 n ++ rest) (i + 1) = word rest i := by
  have hdrop : (le32 n ++ rest).drop (4 * (i + 1)) = rest.drop (4 * i) := by
    rw [Nat.mul_succ, Nat.add_comm, ← List.drop_drop, List.drop_left' (length_le32 n)]
  rw [word, hdrop, word]

theorem word_last {n : Nat} (hn : n < 2 ^ 32) : word (le32 n) 0 = n := by
  rw [← List.append_nil (le32 n)]
  exact word_zero hn []

theorem length_pair (a b : Nat) : (le32 a ++ le32 b).length = 8 := by
  rw [List.length_append, length_le32, length_le32]

theorem pair_ne_nil (a b : Nat) : le32 a ++ le32 b ≠ [] := by
  apply List.ne_nil_of_length_pos
  rw [length_pair]
  omega

/-! ### The daemon reads units -/

namespace Session

variable {s : Session} {calls : DecoderCalls}

theorem not_open_close (s : Session) (reason : SessionEnd) : ¬ (s.close reason).Open := by
  intro hopen
  exact hopen reason rfl

theorem not_rejected_close (s : Session) {reason : SessionEnd} (hhello : reason ≠ .badHello)
    (hheader : reason ≠ .badHeader) : ¬ (s.close reason).Rejected := by
  simp [Rejected, close, hhello, hheader]

theorem onHello_or (s : Session) (calls : DecoderCalls) (magic codec : Nat) :
    s.onHello calls magic codec = s.onHello {} magic codec ∨
      ¬ (s.onHello calls magic codec).Open ∧ ¬ (s.onHello calls magic codec).Rejected ∧
        (s.onHello calls magic codec).received = (s.onHello {} magic codec).received := by
  by_cases hbad : magic ≠ 0x474b4849 ∨ (codec ≠ 4 ∧ codec ≠ 36)
  · left
    simp only [onHello, if_pos hbad]
  · by_cases hopened : calls.opened = true
    · left
      simp only [onHello, hopened]
    · right
      simp only [onHello, if_neg hbad, if_neg hopened, if_true]
      exact ⟨not_open_close _ _, not_rejected_close _ nofun nofun, rfl⟩

theorem onData_ideal (s : Session) {length : Nat} (hlength : length < 2 ^ 32) (data : Bytes) :
    s.onData {} length data =
      { stage := .header, received := s.received ++ [Received.unit data], input := s.input + 1 } := by
  have hroom : ¬ ((0 : BitVec 32) ≠ 0 ∨ (1 : BitVec 32) = 0 ∨ (BitVec.allOnes 32).toNat < length) := by
    rw [BitVec.toNat_allOnes]
    simp only [ne_eq, not_true_eq_false, false_or, not_or]
    exact ⟨by decide, by omega⟩
  unfold onData
  dsimp only
  rw [if_neg hroom, if_neg (not_not.mpr rfl)]

theorem onData_or (s : Session) (calls : DecoderCalls) (length : Nat) (data : Bytes) :
    s.onData calls length data = s.onData {} length data ∨
      ¬ (s.onData calls length data).Open ∧ ¬ (s.onData calls length data).Rejected ∧
        (s.onData calls length data).received = (s.onData {} length data).received := by
  have hreceived : (s.onData {} length data).received = s.received ++ [Received.unit data] := by
    unfold onData
    dsimp only
    split_ifs <;> rfl
  rw [hreceived]
  by_cases hget : calls.getBuffer ≠ 0 ∨ calls.address = 0 ∨ calls.room.toNat < length
  · right
    simp only [onData, if_pos hget]
    exact ⟨not_open_close _ _, not_rejected_close _ nofun nofun, rfl⟩
  · by_cases hput : calls.putBuffer ≠ 0
    · right
      simp only [onData, if_neg hget, if_pos hput]
      exact ⟨not_open_close _ _, not_rejected_close _ nofun nofun, rfl⟩
    · -- no buffer has more room than that of the ideal decoder
      left
      have hroom := calls.room.isLt
      rw [onData_ideal s (by omega) data]
      simp only [onData, if_neg hget, if_neg hput]

theorem take_or (calls : DecoderCalls) (s : Session) (bytes : Bytes) :
    s.take calls bytes = s.take {} bytes ∨
      ¬ (s.take calls bytes).Open ∧ ¬ (s.take calls bytes).Rejected ∧
        (s.take calls bytes).received = (s.take {} bytes).received := by
  unfold take
  split
  · exact onHello_or s calls _ _
  · exact Or.inl rfl
  · exact onData_or s calls _ _
  · exact Or.inl rfl

theorem received_take (s : Session) (bytes : Bytes) : s.received <+: (s.take {} bytes).received := by
  unfold take
  split
  · unfold onHello
    split_ifs
    · exact List.prefix_refl _
    · exact List.prefix_append _ _
    · exact List.prefix_append _ _
  · unfold onHeader
    split_ifs <;> exact List.prefix_refl _
  · unfold onData
    dsimp only
    split_ifs <;> exact List.prefix_append _ _
  · exact List.prefix_refl _

theorem take_closed {reason : SessionEnd} (hs : s.stage = .closed reason) (calls : DecoderCalls)
    (bytes : Bytes) : s.take calls bytes = s := by
  simp only [take, hs]

theorem want_take (s : Session) (bytes : Bytes) (hopen : (s.take {} bytes).Open) :
    0 < (s.take {} bytes).want := by
  unfold take at hopen ⊢
  split at hopen
  · unfold onHello at hopen ⊢
    split_ifs at hopen ⊢
    · exact absurd hopen (not_open_close _ _)
    · exact Nat.succ_pos 7
    · exact absurd hopen (not_open_close _ _)
  · unfold onHeader at hopen ⊢
    split_ifs at hopen ⊢ with hbad
    · exact absurd hopen (not_open_close _ _)
    · simp only [want]
      omega
  · unfold onData at hopen ⊢
    dsimp only at hopen ⊢
    split_ifs at hopen ⊢
    · exact absurd hopen (not_open_close _ _)
    · exact absurd hopen (not_open_close _ _)
    · exact Nat.succ_pos 7
  · rename_i reason hclosed
    exact absurd hclosed (hopen reason)

theorem want_closed (hs : ¬ s.Open) : s.want = 0 := by
  unfold Open at hs
  push Not at hs
  obtain ⟨reason, hreason⟩ := hs
  simp only [want, hreason]

/-- The session as a receiver of the hello and of units. -/
def receiver : Receiver UInt8 Session DecoderCalls Received where
  ideal := reader {}
  take calls s bytes := s.take calls bytes
  log := received
  Idle s := s.stage = .header
  Open := Open
  Rejected := Rejected
  want_closed _ := want_closed
  want_take := want_take
  log_take := received_take
  rejected_take s bytes hs := by
    have hkept : s.take {} bytes = s := by
      rcases hs with hs | hs
      · exact take_closed hs _ _
      · exact take_closed hs _ _
    change (s.take {} bytes).Rejected
    rw [hkept]
    exact hs
  accepted_idle s hs := by simp [Rejected, hs]
  take_or := take_or

theorem after_hello {codec : Nat} (hcodec : codec = 4 ∨ codec = 36) :
    (reader {}).after { state := {} } [le32 hello, le32 codec].flatten =
      { state := { stage := .header, received := [.hello codec] } } := by
  have hlt : codec < 2 ^ 32 := by omega
  have hmagic : word (le32 hello ++ le32 codec) 0 = hello := word_zero (by decide) _
  have hword : word (le32 hello ++ le32 codec) 1 = codec := by
    rw [word_succ, word_last hlt]
  have hgood : ¬ (hello ≠ 0x474b4849 ∨ codec ≠ 4 ∧ codec ≠ 36) := by
    simp only [hello, ne_eq, not_true_eq_false, false_or]
    omega
  have htake : (reader {}).take {} (le32 hello ++ le32 codec) =
      { stage := .header, received := [.hello codec] } := by
    simp only [reader, take, onHello, hmagic, hword, if_neg hgood, if_true, List.nil_append]
  have hflatten : [le32 hello, le32 codec].flatten = (le32 hello ++ le32 codec) ++ [] := by
    simp only [List.flatten_cons, List.flatten_nil, List.append_nil]
  rw [hflatten, Reader.after_whole (pair_ne_nil _ _) (length_pair _ _) htake, Reader.after_nil]

theorem after_unit (hs : s.stage = .header) {data : Bytes} (hdata : data ≠ [])
    (hmax : data.length ≤ gokeMaxInput) :
    (reader {}).after { state := s } [le32 Goke.input, le32 data.length, data].flatten =
      { state := { stage := .header, received := s.received ++ [Received.unit data],
                   input := s.input + 1 } } := by
  have hlt : data.length < 2 ^ 32 := hmax.trans_lt (by decide)
  have hpos : 0 < data.length := List.length_pos_iff.mpr hdata
  have hmagic : word (le32 Goke.input ++ le32 data.length) 0 = Goke.input := word_zero (by decide) _
  have hword : word (le32 Goke.input ++ le32 data.length) 1 = data.length := by
    rw [word_succ, word_last hlt]
  have hgood : ¬ (Goke.input ≠ 0x474b494e ∨ data.length = 0 ∨ gokeMaxInput < data.length) := by
    simp only [Goke.input, ne_eq, not_true_eq_false, false_or]
    omega
  have htake : s.take {} (le32 Goke.input ++ le32 data.length) =
      { s with stage := .data data.length } := by
    simp only [take, hs, onHeader, hmagic, hword, if_neg hgood]
  have htake' : ({ s with stage := .data data.length } : Session).take {} data =
      { stage := .header, received := s.received ++ [Received.unit data], input := s.input + 1 } := by
    exact onData_ideal _ hlt data
  have hflatten : [le32 Goke.input, le32 data.length, data].flatten =
      (le32 Goke.input ++ le32 data.length) ++ (data ++ []) := by
    simp only [List.flatten_cons, List.flatten_nil, List.append_nil, List.append_assoc]
  have hwant : (le32 Goke.input ++ le32 data.length).length = s.want := by
    rw [length_pair, want, hs]
  rw [hflatten, Reader.after_whole (pair_ne_nil _ _) hwant htake, Reader.after_whole hdata rfl htake',
    Reader.after_nil]

end Session

/-! ### The client reads pictures -/

/-- The words of a header that announces planes of the right size. -/
def Announces (magic width height ylen vulen : Nat) : Prop :=
  magic = outputNv21 ∧ (0 < width ∧ width ≤ 4096) ∧ (0 < height ∧ height ≤ 2304) ∧
    ylen = width * height ∧ vulen = width * height / 2

instance (magic width height ylen vulen : Nat) : Decidable (Announces magic width height ylen vulen) :=
  inferInstanceAs (Decidable (_ ∧ _))

/-- No check of a header overflows, whatever the words, and the last one says nothing new. -/
theorem headerAccepted_eq (magic width height ylen vulen : Nat) :
    headerAccepted magic width height ylen vulen =
      some (decide (Announces magic width height ylen vulen)) := by
  by_cases hannounces : Announces magic width height ylen vulen
  · rw [decide_eq_true hannounces]
    obtain ⟨hmagic, ⟨hw, hwidth⟩, ⟨hh, hheight⟩, hy, hvu⟩ := hannounces
    have harea : width * height ≤ 4096 * 2304 := Nat.mul_le_mul hwidth hheight
    have hgood : ¬ (magic ≠ outputNv21 ∨ width = 0 ∨ height = 0 ∨ 4096 < width ∨ 2304 < height) := by
      omega
    have hlt : width * height < 2 ^ 32 := by omega
    have hsum : ylen + vulen < 2 ^ 32 := by omega
    have hmax : ylen + vulen ≤ maxYuv := by
      unfold maxYuv
      omega
    subst hy hvu
    simp only [headerAccepted, if_neg hgood, checkedU32, if_pos hlt, if_pos hsum,
      Option.bind_eq_bind, Option.bind_some, ne_eq, not_true_eq_false, if_false, decide_eq_true hmax]
  · rw [decide_eq_false hannounces]
    unfold headerAccepted
    split_ifs with hbad
    · rfl
    · push Not at hbad
      obtain ⟨hmagic, hw, hh, hwidth, hheight⟩ := hbad
      have harea : width * height ≤ 4096 * 2304 := Nat.mul_le_mul hwidth hheight
      have hlt : width * height < 2 ^ 32 := by omega
      simp only [checkedU32, if_pos hlt, Option.bind_eq_bind, Option.bind_some]
      by_cases hy : ylen = width * height
      · have hvu : vulen ≠ width * height / 2 := by
          intro hvu
          exact hannounces ⟨hmagic, ⟨Nat.pos_of_ne_zero hw, hwidth⟩, ⟨Nat.pos_of_ne_zero hh, hheight⟩,
            hy, hvu⟩
        rw [if_neg (not_not.mpr hy), if_pos hvu]
      · rw [if_pos hy]

namespace Render

variable {r : Render}

theorem not_open_close (r : Render) (reason : RenderEnd) : ¬ (r.close reason).Open := by
  intro hopen
  exact hopen reason rfl

theorem not_rejected_close (r : Render) {reason : RenderEnd} (hheader : reason ≠ .badHeader)
    (hoverflow : reason ≠ .overflow) : ¬ (r.close reason).Rejected := by
  simp [Rejected, close, hheader, hoverflow]

/-- The answers of a window that has room for the picture. -/
def roomy (width height : Nat) : WindowCalls := { stride := width, height := height }

theorem present_roomy (r : Render) (width height : Nat) :
    r.present (roomy width height) width height =
      { r with stage := .header, size := (width, height), frames := (r.frames + 1) % 2 ^ 32 } := by
  simp [present, roomy]

theorem present_or (r : Render) (calls : WindowCalls) (width height : Nat) :
    r.present calls width height = r.present (roomy width height) width height ∨
      ¬ (r.present calls width height).Open ∧ ¬ (r.present calls width height).Rejected ∧
        (r.present calls width height).obtained = r.obtained := by
  rw [present_roomy]
  unfold present
  dsimp only
  split_ifs
  · exact Or.inr ⟨not_open_close _ _, not_rejected_close _ nofun nofun, rfl⟩
  · exact Or.inr ⟨not_open_close _ _, not_rejected_close _ nofun nofun, rfl⟩
  · exact Or.inr ⟨not_open_close _ _, not_rejected_close _ nofun nofun, rfl⟩
  · exact Or.inr ⟨not_open_close _ _, not_rejected_close _ nofun nofun, rfl⟩
  · exact Or.inr ⟨not_open_close _ _, not_rejected_close _ nofun nofun, rfl⟩
  · exact Or.inl rfl

theorem onPlanes_or (r : Render) (calls : WindowCalls) (width height ylen : Nat) (yuv : Bytes) :
    r.onPlanes calls width height ylen yuv = r.onPlanes (roomy width height) width height ylen yuv ∨
      ¬ (r.onPlanes calls width height ylen yuv).Open ∧
        ¬ (r.onPlanes calls width height ylen yuv).Rejected ∧
        (r.onPlanes calls width height ylen yuv).obtained =
          (r.onPlanes (roomy width height) width height ylen yuv).obtained := by
  unfold onPlanes
  dsimp only
  rcases present_or { r with obtained := r.obtained ++ [_] } calls width height with
    heq | ⟨hclosed, haccepted, hobtained⟩
  · exact Or.inl heq
  · refine Or.inr ⟨hclosed, haccepted, ?_⟩
    rw [hobtained, present_roomy]

/-- `take` with a window that has room for every picture. -/
def shown (r : Render) (bytes : Bytes) : Render :=
  match r.stage with
  | .header => r.onHeader (word bytes)
  | .planes width height ylen _ => r.onPlanes (roomy width height) width height ylen bytes
  | .closed _ => r

theorem take_or (calls : WindowCalls) (r : Render) (bytes : Bytes) :
    r.take calls bytes = r.shown bytes ∨
      ¬ (r.take calls bytes).Open ∧ ¬ (r.take calls bytes).Rejected ∧
        (r.take calls bytes).obtained = (r.shown bytes).obtained := by
  cases hstage : r.stage with
  | header =>
    left
    simp only [take, shown, hstage]
  | planes width height ylen vulen =>
    simp only [take, shown, hstage]
    exact onPlanes_or r calls width height ylen bytes
  | closed reason =>
    left
    simp only [take, shown, hstage]

theorem onHeader_eq (r : Render) (words : Nat → Nat) :
    r.onHeader words =
      if Announces (words 0) (words 1) (words 2) (words 3) (words 4) then
        { r with stage := .planes (words 1) (words 2) (words 3) (words 4) }
      else r.close .badHeader := by
  unfold onHeader
  rw [headerAccepted_eq]
  split_ifs with hannounces
  · rw [decide_eq_true hannounces]
  · rw [decide_eq_false hannounces]

theorem obtained_shown (r : Render) (bytes : Bytes) : r.obtained <+: (r.shown bytes).obtained := by
  unfold shown
  split
  · rw [onHeader_eq]
    split_ifs <;> exact List.prefix_refl _
  · unfold onPlanes
    dsimp only
    rw [present_roomy]
    exact List.prefix_append _ _
  · exact List.prefix_refl _

theorem want_shown (r : Render) (bytes : Bytes) (hopen : (r.shown bytes).Open) :
    0 < (r.shown bytes).want := by
  unfold shown at hopen ⊢
  split at hopen
  · rw [onHeader_eq] at hopen ⊢
    split_ifs at hopen ⊢ with hannounces
    · obtain ⟨-, ⟨hwidth, -⟩, ⟨hheight, -⟩, hy, -⟩ := hannounces
      have hpos := Nat.mul_pos hwidth hheight
      simp only [want]
      omega
    · exact absurd hopen (not_open_close _ _)
  · unfold onPlanes
    dsimp only
    rw [present_roomy]
    exact Nat.succ_pos 23
  · rename_i reason hclosed
    exact absurd hclosed (hopen reason)

theorem want_closed (hr : ¬ r.Open) : r.want = 0 := by
  unfold Open at hr
  push Not at hr
  obtain ⟨reason, hreason⟩ := hr
  simp only [want, hreason]

theorem shown_closed {reason : RenderEnd} (hr : r.stage = .closed reason) (bytes : Bytes) :
    r.shown bytes = r := by
  simp only [shown, hr]

/-- The thread that draws as a receiver of pictures. -/
def receiver : Receiver UInt8 Render WindowCalls Nv21 where
  ideal := { want, take := shown }
  take calls r bytes := r.take calls bytes
  log := obtained
  Idle r := r.stage = .header
  Open := Open
  Rejected := Rejected
  want_closed _ := want_closed
  want_take := want_shown
  log_take := obtained_shown
  rejected_take r bytes hr := by
    have hkept : r.shown bytes = r := by
      rcases hr with hr | hr
      · exact shown_closed hr bytes
      · exact shown_closed hr bytes
    change (r.shown bytes).Rejected
    rw [hkept]
    exact hr
  accepted_idle r hr := by simp [Rejected, hr]
  take_or := take_or

/-- The sizes of a picture are within those that the client allows. -/
structure Sized (p : Picture) : Prop where
  width : 0 < p.width ∧ p.width ≤ 4096
  height : 0 < p.height ∧ p.height ≤ 2304

variable {p : Picture}

theorem Sized.u32_eq (hp : Sized p) : u32 (p.width * p.height) = p.width * p.height := by
  have hle : p.width * p.height ≤ 4096 * 2304 := Nat.mul_le_mul hp.width.2 hp.height.2
  exact u32_of_lt (by omega)

theorem length_head (p : Picture) : p.head.length = 24 := by
  simp [Picture.head, length_le32]

theorem Sized.announces (hp : Sized p) :
    word p.head 1 = p.width ∧ word p.head 2 = p.height ∧ word p.head 3 = p.nv21.y.length ∧
      word p.head 4 = p.nv21.vu.length ∧
      Announces (word p.head 0) (word p.head 1) (word p.head 2) (word p.head 3) (word p.head 4) := by
  have hwidth := hp.width
  have hheight := hp.height
  have hle : p.width * p.height ≤ 4096 * 2304 := Nat.mul_le_mul hwidth.2 hheight.2
  have hy : p.nv21.y.length = p.width * p.height := by
    simp [Picture.nv21, bytesOf, hp.u32_eq]
  have hvu : p.nv21.vu.length = p.width * p.height / 2 := by
    simp [Picture.nv21, bytesOf, hp.u32_eq]
  have hwords : word p.head 0 = outputNv21 ∧ word p.head 1 = p.width ∧ word p.head 2 = p.height ∧
      word p.head 3 = p.width * p.height ∧ word p.head 4 = p.width * p.height / 2 := by
    simp only [Picture.head, hp.u32_eq, List.map_cons, List.map_nil, List.flatten_cons, word_succ]
    refine ⟨word_zero (by decide) _, word_zero ?_ _, word_zero ?_ _, word_zero ?_ _, word_zero ?_ _⟩
    all_goals omega
  obtain ⟨h0, h1, h2, h3, h4⟩ := hwords
  rw [h0, h1, h2, h3, h4, hy, hvu]
  exact ⟨rfl, rfl, rfl, rfl, rfl, hwidth, hheight, rfl, rfl⟩

theorem after_picture (hr : r.stage = .header) (hp : Sized p) :
    receiver.ideal.after { state := r } p.message.flatten =
      { state := { r with
          stage := .header, size := (p.width, p.height), frames := (r.frames + 1) % 2 ^ 32,
          obtained := r.obtained ++ [p.nv21] } } := by
  obtain ⟨hw, hh, hy, hvu, hannounces⟩ := hp.announces
  have hpos : 0 < p.nv21.y.length := by
    rw [← hy, hannounces.2.2.2.1]
    exact Nat.mul_pos hannounces.2.1.1 hannounces.2.2.1.1
  have htake : r.shown p.head =
      { r with stage := .planes p.width p.height p.nv21.y.length p.nv21.vu.length } := by
    simp only [shown, hr, onHeader_eq]
    rw [if_pos hannounces, hw, hh, hy, hvu]
  have htake' : ({ r with
        stage := .planes p.width p.height p.nv21.y.length p.nv21.vu.length } : Render).shown
        (p.nv21.y ++ p.nv21.vu) =
      { r with
        stage := .header, size := (p.width, p.height), frames := (r.frames + 1) % 2 ^ 32,
        obtained := r.obtained ++ [p.nv21] } := by
    simp only [shown, onPlanes, present_roomy, List.take_left, List.drop_left]
    rfl
  have hhead : p.head ≠ [] := by
    apply List.ne_nil_of_length_pos
    rw [length_head]
    omega
  have hplanes : p.nv21.y ++ p.nv21.vu ≠ [] := by
    apply List.ne_nil_of_length_pos
    rw [List.length_append]
    omega
  have hwant : p.head.length = r.want := by
    rw [length_head, want, hr]
  have hflatten : p.message.flatten = p.head ++ ((p.nv21.y ++ p.nv21.vu) ++ []) := by
    simp only [Picture.message, List.flatten_cons, List.flatten_nil, List.append_nil]
  rw [hflatten, Reader.after_whole hhead hwant htake,
    Reader.after_whole hplanes List.length_append htake', Reader.after_nil]

end Render

/-! ### What the two sides write -/

/-- What `send` writes. -/
def message (data : Bytes) : List Bytes := [le32 input, le32 data.length, data]

/-- The units that the daemon accepts. -/
def Sendable (data : Bytes) : Prop := data ≠ [] ∧ data.length ≤ gokeMaxInput

theorem Session.after_units {us : List Bytes} (hus : ∀ u ∈ us, Sendable u) {s : Session}
    (hs : s.stage = .header) :
    ∃ s', (Session.reader {}).after { state := s } (us.flatMap message).flatten = { state := s' } ∧
      s'.stage = .header ∧ s'.received = s.received ++ us.map .unit := by
  induction us generalizing s with
  | nil => exact ⟨s, rfl, hs, (List.append_nil _).symm⟩
  | cons u us ih =>
    obtain ⟨hu, hmax⟩ := hus u List.mem_cons_self
    have hnext : (⟨.header, s.received ++ [Received.unit u], s.input + 1⟩ : Session).stage = .header := rfl
    obtain ⟨s', hafter, hstage, hreceived⟩ := ih (fun v hv => hus v (List.mem_cons_of_mem _ hv)) hnext
    refine ⟨s', ?_, hstage, ?_⟩
    · rw [List.flatMap_cons, List.flatten_append, Reader.after_append, message,
        Session.after_unit hs hu hmax, hafter]
    · rw [hreceived, List.map_cons, List.append_assoc, List.singleton_append]

/-- The parameter sets that a call of `decode` sends. -/
def GokeDecoder.paramUnits (d : GokeDecoder) (data : Bytes) : List Bytes :=
  if d.csdSent then [] else (extractParamSets data d.hevc).join.toList

theorem GokeDecoder.csd_eq (d : GokeDecoder) {data : Bytes} (hdata : Sendable data) :
    ∃ r, d.csd data = some r ∧ d.paramUnits data = r.toList ∧ ∀ csd ∈ r, Sendable csd := by
  by_cases hsent : d.csdSent = true
  · exact ⟨none, by simp [csd, hsent], by simp [paramUnits, hsent], nofun⟩
  · obtain ⟨r, hr, hcsd⟩ := extractParamSets_some data d.hevc
    refine ⟨r, by simp [csd, hsent, hr], by simp [paramUnits, hsent, hr], ?_⟩
    intro csd hmem
    obtain ⟨hne, hle⟩ := hcsd csd hmem
    exact ⟨hne, hle.trans hdata.2⟩

theorem GokeDecoder.sendable_units (d : GokeDecoder) {data : Bytes} (hdata : Sendable data) :
    ∀ u ∈ d.paramUnits data ++ [data], Sendable u := by
  intro u hu
  obtain ⟨r, -, hparam, hcsd⟩ := d.csd_eq hdata
  rcases List.mem_append.mp hu with hu | hu
  · rw [hparam, Option.mem_toList] at hu
    exact hcsd u hu
  · rw [List.mem_singleton.mp hu]
    exact hdata

theorem GokeDecoder.send_eq {data : Bytes} (hdata : Sendable data) : send data = some (message data) := by
  have hlt : data.length < 2 ^ 32 := hdata.2.trans_lt (by decide)
  exact if_pos hlt

/-- A call of `decode` succeeds, and sends the parameter sets and the unit. -/
theorem GokeDecoder.decode_eq (d : GokeDecoder) {data : Bytes} (hdata : Sendable data) :
    d.decode data =
      some ((d.paramUnits data ++ [data]).flatMap message, true, { d with csdSent := true }) := by
  have hunit : ∀ sent, d.sendUnit sent data =
      (sent ++ message data, true, { d with csdSent := true }) := by
    intro sent
    simp only [sendUnit, send_eq hdata]
  obtain ⟨r, hr, hparam, hcsd⟩ := d.csd_eq hdata
  rw [hparam]
  cases r with
  | none =>
    simp only [decode, hr, hunit, Option.toList_none, List.nil_append, List.flatMap_singleton]
  | some csd =>
    simp only [decode, hr, hunit, send_eq (hcsd csd rfl), Option.toList_some, List.flatMap_append,
      List.flatMap_singleton]

/-- The sizes of a picture that `nv21_from_frame` makes. -/
theorem sized_of_frame {d d' : Daemon} {f : Frame} {first second : Option Nat} {memory : Nat → Plane}
    {stack : Nat × Nat → Nat} {p : Picture}
    (h : d.nv21FromFrame f first second memory stack = (some p, d')) : Render.Sized p := by
  unfold Daemon.nv21FromFrame at h
  split_ifs at h with haccepted
  swap
  · exact absurd (congrArg Prod.fst h) nofun
  have hsize : p.width = f.ow ∧ p.height = f.oh := by
    dsimp only at h
    split at h
    · rw [← Option.some.inj (congrArg Prod.fst h)]
      unfold Frame.picture
      split_ifs <;> exact ⟨rfl, rfl⟩
    · exact absurd (congrArg Prod.fst h) nofun
  obtain ⟨⟨-, hwidth⟩, -, hheight⟩ := Frame.outputSize_le haccepted
  obtain ⟨-, hw, hh⟩ := haccepted
  refine ⟨?_, ?_⟩
  · rw [hsize.1]
    omega
  · rw [hsize.2]
    omega

/-! ### Runs -/

namespace Bridge

variable {codec : Option CodecFormat} {w : Bridge}

/-- Both directions are in step, and the client knows whether the parameter sets have been sent. -/
structure Inv (codec : Option CodecFormat) (w : Bridge) : Prop where
  panicked : w.panicked = false
  hevc : w.client.hevc = (codec == some .h265)
  csdSent : w.client.csdSent = !w.units.isEmpty
  up : Session.receiver.InSync w.up (expected codec w.units)
  down : Render.receiver.InSync w.down w.drain.emitted

theorem Inv.inStep (hw : w.Inv codec) : w.InStep codec where
  panicked := hw.panicked
  accepted := hw.up.accepted
  received := hw.up.log_le
  delivered := hw.up.log_eq
  progress hopen hbroken := by
    rcases hw.up.progress hopen hbroken {} with hdone | hwrite | hread
    · exact Or.inl hdone
    · exact Or.inr (Or.inl hwrite)
    · exact Or.inr (Or.inr fun _ => hread)
  acceptedBack := hw.down.accepted
  obtained := hw.down.log_le
  deliveredBack := hw.down.log_eq
  progressBack hopen hbroken := by
    rcases hw.down.progress hopen hbroken {} with hdone | hwrite | hread
    · exact Or.inl hdone
    · exact Or.inr (Or.inl hwrite)
    · exact Or.inr (Or.inr fun _ => hread)

theorem expected_append (w : Bridge) (hw : w.Inv codec) (data : Bytes) :
    expected codec (w.units ++ [data]) =
      expected codec w.units ++ (w.client.paramUnits data ++ [data]).map .unit := by
  unfold expected GokeDecoder.paramUnits
  rw [hw.csdSent, hw.hevc]
  cases w.units with
  | nil => simp
  | cons u us => simp

theorem inv_decode (hw : w.Inv codec) {data : Bytes} (hp : w.Possible (.decode data)) :
    (w.onDecode data).Inv codec := by
  obtain ⟨hbroken, -, hdata⟩ := hp
  unfold onDecode
  rw [w.client.decode_eq hdata]
  refine ⟨hw.panicked, hw.hevc, ?_, ?_, hw.down⟩
  · simp
  · rw [expected_append w hw]
    apply hw.up.send hbroken
    intro goal hgoal
    exact Session.after_units (w.client.sendable_units hdata) hgoal

theorem inv_frame (hw : w.Inv codec) {f : Frame} {first second : Option Nat} {memory : Nat → Plane}
    {stack : Nat × Nat → Nat} (hp : w.Possible (.frame f first second memory stack)) :
    (w.onFrame f first second memory stack).Inv codec := by
  unfold onFrame
  split_ifs
  · exact { hw with down := hw.down.fail }
  · cases hframe : w.drain.daemon.nv21FromFrame f first second memory stack with
    | mk p daemon =>
      cases p with
      | none => exact { hw with down := hw.down }
      | some p =>
        refine { hw with down := hw.down.send hp.1 ?_ }
        intro goal hgoal
        exact ⟨_, Render.after_picture hgoal (sized_of_frame hframe), rfl, rfl⟩

theorem inv_step {a : BridgeAction} (hw : w.Inv codec) (hp : w.Possible a) : (w.step a).Inv codec := by
  cases a with
  | decode data => exact inv_decode hw hp
  | clientWrite n => exact { hw with up := hw.up.write n }
  | clientFails => exact { hw with up := hw.up.fail }
  | sessionRead n calls => exact { hw with up := hw.up.read calls hp }
  | sessionStops =>
    have hstop := hw.up.stop (Session.not_open_close w.up.reader.state .stopped)
      (Session.not_rejected_close _ nofun nofun) rfl
    exact { hw with up := hstop }
  | frame f first second memory stack => exact inv_frame hw hp
  | drainWrite n => exact { hw with down := hw.down.write n }
  | drainFails => exact { hw with down := hw.down.fail }
  | renderRead n calls => exact { hw with down := hw.down.read calls hp }
  | renderStops =>
    have hstop := hw.down.stop (Render.not_open_close w.down.reader.state .stopped)
      (Render.not_rejected_close _ nofun nofun) rfl
    exact { hw with down := hstop }

theorem codecId_eq_some {id : Nat} (h : codecId codec = some id) :
    codec = some .h264 ∧ id = 4 ∨ codec = some .h265 ∧ id = 36 := by
  unfold codecId at h
  split at h
  · exact Or.inl ⟨rfl, (Option.some.inj h).symm⟩
  · exact Or.inr ⟨rfl, (Option.some.inj h).symm⟩
  · exact absurd h nofun

theorem inSync_hello {id : Nat} (hid : codecId codec = some id) :
    Session.receiver.InSync { out := [le32 hello, le32 id], reader := { state := {} } }
      (expected codec []) := by
  have hcodec : id = 4 ∨ id = 36 := by
    rcases codecId_eq_some hid with ⟨-, hid⟩ | ⟨-, hid⟩
    · exact Or.inl hid
    · exact Or.inr hid
  have hexpected : [.hello id] = expected codec [] := by
    simp [expected, hid]
  have hleads : Link.Leads { out := [le32 hello, le32 id], reader := { state := {} } }
      (Session.reader {}) { stage := .header, received := [.hello id] } := by
    refine ⟨[], fun _ => rfl, ?_⟩
    rw [List.append_nil, List.nil_append]
    exact Session.after_hello hcodec
  refine Receiver.InSync.of_leads ?_ ?_ hleads rfl hexpected
  · intro b hb
    apply List.ne_nil_of_length_pos
    rcases List.mem_pair.mp hb with rfl | rfl
    · rw [length_le32]
      omega
    · rw [length_le32]
      omega
  · intro hopen
    exact Nat.succ_pos 7

theorem inv_start {client : GokeDecoder} {out : List Bytes} {surface connected : Bool}
    (hnew : GokeDecoder.new codec surface connected = some (client, out)) (daemon : Daemon) :
    (start client out daemon).Inv codec := by
  unfold GokeDecoder.new at hnew
  cases hid : codecId codec with
  | none =>
    rw [hid] at hnew
    exact absurd hnew nofun
  | some id =>
    rw [hid] at hnew
    dsimp only at hnew
    split_ifs at hnew
    cases hnew
    refine ⟨rfl, ?_, rfl, inSync_hello hid, ?_⟩
    · rcases codecId_eq_some hid with ⟨rfl, rfl⟩ | ⟨rfl, rfl⟩ <;> rfl
    · refine Receiver.InSync.of_leads nofun ?_ ⟨[], fun _ => rfl, rfl⟩ rfl rfl
      intro hopen
      exact Nat.succ_pos 23

end Bridge

/-- The two sides of the bridge stay in step, in every order of their calls. -/
theorem bridge_inStep {codec : Option CodecFormat} {surface connected : Bool} {client : GokeDecoder}
    {out : List Bytes} (hnew : GokeDecoder.new codec surface connected = some (client, out))
    (daemon : Daemon) {actions : List BridgeAction}
    (h : History.Guarded Bridge.step Bridge.Possible (.start client out daemon) actions) :
    History.Throughout Bridge.step (Bridge.InStep codec) (.start client out daemon) actions := by
  have hinv : History.Throughout Bridge.step (Bridge.Inv codec) (.start client out daemon) actions :=
    History.throughout_of_guarded (fun _ _ => Bridge.inv_step) (Bridge.inv_start hnew daemon) h
  exact History.throughout_imp (fun _ => Bridge.Inv.inStep) hinv

/-- A frame of two by two pixels. -/
def tinyFrame : Frame := fun i =>
  if i = 71 ∨ i = 72 then 2 else if i = 6 then 64 else if i = 2 then 1 else if i = 7 then 2 else 0

/-- A unit with its parameter sets goes to the daemon, and a picture comes back; the calls take
other parts than the messages have. -/
def oneOfEach : List BridgeAction :=
  [.clientWrite 1, .clientWrite 3, .sessionRead 3 {}, .clientWrite 4, .sessionRead 5 {},
   .decode [0, 0, 0, 1, 0x67, 7, 0, 0, 1, 0x65, 9],
   .clientWrite 4, .clientWrite 4, .clientWrite 2, .sessionRead 8 {}, .sessionRead 1 {},
   .frame tinyFrame (some 1) (some 2) (fun p i => UInt8.ofNat (16 * p + i)) (fun _ => 0),
   .drainWrite 24, .drainWrite 3, .renderRead 20 {}, .renderRead 4 {}, .renderRead 2 {},
   .clientWrite 4, .clientWrite 4, .clientWrite 4, .clientWrite 11, .sessionRead 5 {},
   .sessionRead 8 {}, .sessionRead 11 {}, .drainWrite 1, .drainWrite 2, .renderRead 4 {}]

theorem bridge_inStep_oneOfEach :
    (History.run Bridge.step (.start { hevc := false } [le32 hello, le32 4]
          { scratch := Daemon.blank }) oneOfEach).up.reader.state.received =
        [.hello 4, .unit [0, 0, 0, 1, 0x67, 7], .unit [0, 0, 0, 1, 0x67, 7, 0, 0, 1, 0x65, 9]]
      ∧ (History.run Bridge.step (.start { hevc := false } [le32 hello, le32 4]
          { scratch := Daemon.blank }) oneOfEach).down.reader.state.obtained =
        [⟨2, 2, [16, 17, 80, 81], [32, 33]⟩]
      ∧ History.Throughout Bridge.step (Bridge.InStep (some .h264))
          (.start { hevc := false } [le32 hello, le32 4] { scratch := Daemon.blank }) oneOfEach :=
  ⟨by decide +kernel, by decide +kernel,
    bridge_inStep (show GokeDecoder.new (some .h264) true true = _ from rfl) _ (by decide +kernel)⟩

end RustDesk.Goke
