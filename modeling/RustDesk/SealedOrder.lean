import RustDesk.SecuredStreams
import Mathlib.Data.List.Basic

/-!
# The order of sealed frames

One end seals its messages under the numbers of its counter. An adversary decides which
bytes reach the other end, whose counter goes on with every frame of more than one byte,
opened or not. So the numbers of the two ends agree by position: the box in a frame is
opened under the number that the frame has among those of more than one byte.

The counters are of 64 bits. After 2⁶⁴ frames the reader is back at the number of the first.
-/

namespace RustDesk.SealedOrder

/-- A call of `secretbox::seal` and the box it gave. -/
structure Seal where
  nonce : Bytes
  box : Bytes
  deriving DecidableEq, Repr

/-- A frame `next` has decoded, and the payload it returned for it. -/
structure Handled where
  frame : Bytes
  result : Option Bytes
  deriving DecidableEq, Repr

variable {B : SecretBox}

/-- The payloads, seals and frames in the order of the calls. -/
structure Channel (B : SecretBox) where
  sender : FramedStream B
  receiver : FramedStream B
  sent : List Bytes := []
  seals : List Seal := []
  handled : List Handled := []

inductive Event
  | send (msg : Bytes)
  | arrive (bytes : Bytes)
  | next
  | reply (msg : Bytes)
  deriving DecidableEq, Repr

namespace Channel

def sealOf (msg : Bytes) (e : Encrypt B) : Seal := ⟨getNonce (e.sent + 1), (e.enc msg).2⟩

def payload : Option (Except StreamError Bytes) → Option Bytes
  | some (.ok bytes) => some bytes
  | _ => none

/-- Both ends have called `set_key`. -/
def start (key : B.Key) (sender receiver : FramedStream B) : Channel B where
  sender := sender.setKey key
  receiver := receiver.setKey key

def step (s : Channel B) : Event → Channel B
  | .send msg =>
    { s with
      sender := (s.sender.sendRaw msg).1
      sent := s.sent ++ [msg]
      seals := s.seals ++ (s.sender.encrypt.map (sealOf msg)).toList }
  | .arrive bytes => { s with receiver := s.receiver.arrive bytes }
  | .next =>
    { s with
      receiver := s.receiver.next.1
      handled := s.handled ++ ((Stream.tcp s.receiver).received.map fun frame =>
        ⟨frame, payload s.receiver.next.2⟩).toList }
  | .reply msg => { s with receiver := (s.receiver.sendRaw msg).1 }

/-- The frames that were decrypted. -/
def long (s : Channel B) : List Handled := s.handled.filter (1 < ·.frame.length)

/-- The payloads of more than one byte that `next` returned. -/
def returned (s : Channel B) : List Bytes :=
  (s.handled.filterMap (·.result)).filter (1 < ·.length)

/-- What an ideal box gives: the next frame opens under the nonce of the reader only if the
peer has sealed it under this nonce. -/
def Unforged (s : Channel B) (ev : Event) : Prop :=
  ev = .next → ∀ frame ∈ (Stream.tcp s.receiver).received, 1 < frame.length →
    ∀ e ∈ s.receiver.encrypt, (B.openBox frame (getNonce (e.received + 1)) e.key).isSome →
      ⟨getNonce (e.received + 1), frame⟩ ∈ s.seals

instance decidableUnforged (s : Channel B) (ev : Event) : Decidable (Unforged s ev) :=
  inferInstanceAs (Decidable (_ → ∀ frame ∈ _, _ → ∀ e ∈ _, _ → _))

/-- Neither end has used a number twice. -/
def Unwrapped (s : Channel B) : Prop := s.seals.length ≤ 2 ^ 64 ∧ s.long.length ≤ 2 ^ 64

/-- The frames that were opened are those in their place, and only frames that were decrypted count. The
payloads have no hole as long as no frame was rejected. -/
structure InOrder (s : Channel B) : Prop where
  accepted : ∀ (k : Nat) (h : Handled), s.long[k]? = some h →
    (h.result.isSome ↔ (s.seals[k]?).map (·.box) = some h.frame)
  content : ∀ (k : Nat) (h : Handled) (m : Bytes), s.long[k]? = some h → h.result = some m → s.sent[k]? = some m
  subsequence : s.returned.Sublist s.sent
  contiguous : (∀ h ∈ s.long, h.result.isSome) → s.returned <+: s.sent.filter (1 < ·.length)
  counted : ∀ e ∈ s.receiver.encrypt, e.received = UInt64.ofNat s.long.length

def nonceAt (k : Nat) : Bytes := getNonce (UInt64.ofNat (k + 1))

/-- The seals and the frames that were decrypted have the numbers of their places. -/
structure Inv (key : B.Key) (s : Channel B) : Prop where
  sender : ∃ e, s.sender.encrypt = some e ∧ e.key = key ∧ e.sent = UInt64.ofNat s.sent.length
  receiver : ∃ e, s.receiver.encrypt = some e ∧ e.key = key ∧
    e.received = UInt64.ofNat s.long.length
  seals : s.seals = s.sent.mapIdx fun i m => ⟨nonceAt i, B.sealBox m (nonceAt i) key⟩
  opened : ∀ (k : Nat) (h : Handled), s.long[k]? = some h →
    h.result = B.openBox h.frame (nonceAt k) key
  genuine : ∀ (k : Nat) (h : Handled), s.long[k]? = some h → h.result.isSome →
    ⟨nonceAt k, h.frame⟩ ∈ s.seals
  short : ∀ h ∈ s.handled, h.frame.length ≤ 1 → h.result = some h.frame

variable {key : B.Key} {s : Channel B}

theorem ofNat_succ (n : Nat) : UInt64.ofNat n + 1 = UInt64.ofNat (n + 1) :=
  (UInt64.ofNat_add n 1).symm

theorem inv_start (key : B.Key) (sender receiver : FramedStream B) :
    Inv key (start key sender receiver) := by
  refine ⟨⟨_, rfl, rfl, rfl⟩, ⟨_, rfl, rfl, rfl⟩, rfl, ?_, ?_, ?_⟩
  · intro k h hk
    cases hk
  · intro k h hk
    cases hk
  · intro h hh
    cases hh

theorem inv_send (h : Inv key s) (msg : Bytes) : Inv key (s.step (.send msg)) := by
  obtain ⟨e, he, hkey, hsent⟩ := h.sender
  have hseals : (s.step (.send msg)).seals = s.seals ++ [sealOf msg e] := by
    simp [step, he]
  refine ⟨⟨(e.enc msg).1, ?_, hkey, ?_⟩, h.receiver, ?_, h.opened, ?_, h.short⟩
  · simp [step, FramedStream.sendRaw, he]
  · simp only [Encrypt.enc, step, hsent, List.length_append, List.length_singleton]
    exact ofNat_succ _
  · rw [hseals, h.seals]
    simp only [step, List.mapIdx_concat, sealOf, Encrypt.enc, hsent, hkey, nonceAt, ofNat_succ]
  · intro k x hk hx
    rw [hseals]
    exact List.mem_append_left _ (h.genuine k x hk hx)

theorem inv_reply (h : Inv key s) (msg : Bytes) : Inv key (s.step (.reply msg)) := by
  obtain ⟨e, he, hkey, hreceived⟩ := h.receiver
  refine ⟨h.sender, ⟨(e.enc msg).1, ?_, hkey, hreceived⟩, h.seals, h.opened, h.genuine, h.short⟩
  simp [step, FramedStream.sendRaw, he]

theorem next_waiting {s : FramedStream B} (h : (Stream.tcp s).received = none) :
    s.next.1.encrypt = s.encrypt := by
  dsimp only [Stream.received] at h
  unfold FramedStream.next
  rcases hd : s.codec.decode s.buffer with ⟨codec, buffer, err | _ | frame⟩
  · rfl
  · rfl
  · rw [hd] at h
    cases h

theorem next_frame {s : FramedStream B} {e : Encrypt B} {frame : Bytes}
    (he : s.encrypt = some e) (h : (Stream.tcp s).received = some frame) :
    s.next.1.encrypt = some (e.dec frame).1 ∧ payload s.next.2 = (e.dec frame).2 := by
  dsimp only [Stream.received] at h
  unfold FramedStream.next
  rcases hd : s.codec.decode s.buffer with ⟨codec, buffer, err | _ | frame'⟩
  · rw [hd] at h
    cases h
  · rw [hd] at h
    cases h
  · rw [hd] at h
    cases h
    rw [he]
    dsimp only
    rcases e.dec frame with ⟨e', _ | plain⟩
    · exact ⟨rfl, rfl⟩
    · exact ⟨rfl, rfl⟩

theorem getElem?_concat_cases {α : Type*} {xs : List α} {a x : α} {k : Nat}
    (h : (xs ++ [a])[k]? = some x) : xs[k]? = some x ∨ (k = xs.length ∧ x = a) := by
  rcases Nat.lt_trichotomy k xs.length with hlt | heq | hgt
  · rw [List.getElem?_append_left hlt] at h
    exact .inl h
  · subst heq
    rw [List.getElem?_concat_length] at h
    exact .inr ⟨rfl, (Option.some.inj h).symm⟩
  · have hlen : (xs ++ [a]).length ≤ k := by
      rw [List.length_append, List.length_singleton]
      omega
    rw [List.getElem?_eq_none hlen] at h
    cases h

/-- A call of `next` that decrypts nothing: the counter and the decrypted frames stay. -/
theorem inv_next_kept (h : Inv key s) (hlong : (s.step .next).long = s.long)
    (hencrypt : s.receiver.next.1.encrypt = s.receiver.encrypt)
    (hshort : ∀ x ∈ (s.step .next).handled, x.frame.length ≤ 1 → x.result = some x.frame) :
    Inv key (s.step .next) := by
  obtain ⟨e, he, hkey, hreceived⟩ := h.receiver
  refine ⟨h.sender, ⟨e, hencrypt.trans he, hkey, ?_⟩, h.seals, ?_, ?_, hshort⟩
  · rw [hlong, hreceived]
  · rw [hlong]
    exact h.opened
  · rw [hlong]
    exact h.genuine

theorem short_concat {hs : List Handled} {a : Handled}
    (h : ∀ x ∈ hs, x.frame.length ≤ 1 → x.result = some x.frame)
    (ha : a.frame.length ≤ 1 → a.result = some a.frame) :
    ∀ x ∈ hs ++ [a], x.frame.length ≤ 1 → x.result = some x.frame := by
  intro x hx
  rcases List.mem_append.mp hx with hx | hx
  · exact h x hx
  · rw [List.mem_singleton.mp hx]
    exact ha

/-- A call of `next` that decrypts a frame, under the number of its place. -/
theorem inv_next_long (h : Inv key s) (hok : Unforged s .next) {frame : Bytes}
    (hr : (Stream.tcp s.receiver).received = some frame) (hlen : ¬ frame.length ≤ 1)
    (hhandled : ∀ e, s.receiver.encrypt = some e →
      (s.step .next).handled = s.handled ++ [⟨frame, (e.dec frame).2⟩]) :
    Inv key (s.step .next) := by
  obtain ⟨e, he, hkey, hreceived⟩ := h.receiver
  obtain ⟨hnext, -⟩ := next_frame he hr
  have hdec : e.dec frame = ({ e with received := e.received + 1 },
      B.openBox frame (getNonce (e.received + 1)) e.key) := if_neg hlen
  have hnonce : getNonce (e.received + 1) = nonceAt s.long.length := by
    rw [hreceived, ofNat_succ, nonceAt]
  have hlong : (s.step .next).long =
      s.long ++ [⟨frame, B.openBox frame (nonceAt s.long.length) key⟩] := by
    rw [long, hhandled e he, List.filter_append, hdec, hnonce, hkey]
    rw [List.filter_cons_of_pos (by simpa using hlen)]
    rfl
  rw [hdec] at hnext
  refine ⟨h.sender, ⟨_, hnext, hkey, ?_⟩, h.seals, ?_, ?_, ?_⟩
  · rw [hlong, List.length_append, List.length_singleton, ← ofNat_succ, ← hreceived]
  · intro k x hk
    rw [hlong] at hk
    rcases getElem?_concat_cases hk with hk | ⟨rfl, rfl⟩
    · exact h.opened k x hk
    · rfl
  · intro k x hk hx
    rw [hlong] at hk
    rcases getElem?_concat_cases hk with hk | ⟨rfl, rfl⟩
    · exact h.genuine k x hk hx
    · have hgenuine := hok rfl frame hr (by omega) e he
      rw [hnonce, hkey] at hgenuine
      exact hgenuine hx
  · rw [hhandled e he]
    apply short_concat h.short
    intro hshort
    exact absurd hshort hlen

theorem inv_next (h : Inv key s) (hok : Unforged s .next) : Inv key (s.step .next) := by
  cases hr : (Stream.tcp s.receiver).received with
  | none =>
    have hhandled : (s.step .next).handled = s.handled := by simp [step, hr]
    apply inv_next_kept h
    · rw [long, long, hhandled]
    · exact next_waiting hr
    · rw [hhandled]
      exact h.short
  | some frame =>
    have hhandled : ∀ e, s.receiver.encrypt = some e →
        (s.step .next).handled = s.handled ++ [⟨frame, (e.dec frame).2⟩] := by
      intro e he
      simp [step, hr, (next_frame he hr).2]
    by_cases hlen : frame.length ≤ 1
    · -- let through as it is
      obtain ⟨e, he, -⟩ := h.receiver
      have hdec : e.dec frame = (e, some frame) := if_pos hlen
      have hhandled' := hhandled e he
      rw [hdec] at hhandled'
      apply inv_next_kept h
      · rw [long, hhandled', List.filter_append, List.filter_cons_of_neg (by simpa using hlen)]
        simp [long]
      · rw [(next_frame he hr).1, hdec, he]
      · rw [hhandled']
        exact short_concat h.short fun _ => rfl
    · exact inv_next_long h hok hr hlen hhandled

theorem inv_step {ev : Event} (h : Inv key s) (hok : Unforged s ev) : Inv key (s.step ev) := by
  cases ev with
  | send msg => exact inv_send h msg
  | arrive bytes => exact ⟨h.sender, h.receiver, h.seals, h.opened, h.genuine, h.short⟩
  | next => exact inv_next h hok
  | reply msg => exact inv_reply h msg

/-! ### What the numbers give -/

theorem nonceAt_inj {i j : Nat} (hi : i < 2 ^ 64) (hj : j < 2 ^ 64) (h : nonceAt i = nonceAt j) :
    i = j := by
  have hnat := congrArg UInt64.toNat (getNonce_inj h)
  rw [UInt64.toNat_ofNat', UInt64.toNat_ofNat'] at hnat
  omega

theorem Inv.box_at (h : Inv key s) (k : Nat) :
    (s.seals[k]?).map (·.box) = (s.sent[k]?).map fun m => B.sealBox m (nonceAt k) key := by
  rw [h.seals, List.getElem?_mapIdx, Option.map_map]
  rfl

theorem Inv.at_place (h : Inv key s) (hone : Unwrapped s) {k : Nat} {x : Handled}
    (hk : s.long[k]? = some x) (hx : x.result.isSome) :
    (s.seals[k]?).map (·.box) = some x.frame := by
  obtain ⟨i, hi, hseal⟩ := List.getElem_of_mem (h.genuine k x hk hx)
  have hat : s.seals[i]? = some ⟨nonceAt k, x.frame⟩ := by rw [List.getElem?_eq_getElem hi, hseal]
  have hnonce : nonceAt i = nonceAt k := by
    rw [h.seals, List.getElem?_mapIdx] at hat
    obtain ⟨m, -, hm⟩ := Option.map_eq_some_iff.mp hat
    exact congrArg Seal.nonce hm
  have hlt : k < s.long.length := (List.getElem?_eq_some_iff.mp hk).1
  have hik := nonceAt_inj (hi.trans_le hone.1) (hlt.trans_le hone.2) hnonce
  rw [← hik, hat]
  rfl

theorem Inv.accepted (h : Inv key s) (hone : Unwrapped s) {k : Nat} {x : Handled}
    (hk : s.long[k]? = some x) :
    x.result.isSome ↔ (s.seals[k]?).map (·.box) = some x.frame := by
  constructor
  · exact h.at_place hone hk
  · intro hbox
    rw [h.box_at] at hbox
    obtain ⟨m, -, hm⟩ := Option.map_eq_some_iff.mp hbox
    rw [h.opened k x hk, ← hm, B.openBox_sealBox]
    rfl

theorem Inv.content (h : Inv key s) (hone : Unwrapped s) {k : Nat} {x : Handled} {m : Bytes}
    (hk : s.long[k]? = some x) (hm : x.result = some m) : s.sent[k]? = some m := by
  have hbox := h.at_place hone hk (by rw [hm]; rfl)
  rw [h.box_at] at hbox
  obtain ⟨m', hm', hseal⟩ := Option.map_eq_some_iff.mp hbox
  have hopen := h.opened k x hk
  rw [hm, ← hseal, B.openBox_sealBox] at hopen
  rw [hm', hopen]

theorem sublist_of_at_place {rs : List (Option Bytes)} {ms : List Bytes}
    (h : ∀ (k : Nat) (m : Bytes), rs[k]? = some (some m) → ms[k]? = some m) :
    (rs.filterMap id).Sublist ms := by
  induction rs generalizing ms with
  | nil => exact List.nil_sublist ms
  | cons r rs ih =>
    have htail : ∀ (k : Nat) (m : Bytes), rs[k]? = some (some m) → ms.tail[k]? = some m := by
      intro k m hk
      rw [List.getElem?_tail]
      exact h (k + 1) m hk
    cases r with
    | none => exact (ih htail).trans (List.tail_sublist ms)
    | some m =>
      have hhead : ms[0]? = some m := h 0 m rfl
      cases ms with
      | nil => cases hhead
      | cons m' ms =>
        cases hhead
        exact (ih htail).cons_cons m

theorem prefix_of_at_place {rs : List (Option Bytes)} {ms : List Bytes} (hsome : ∀ r ∈ rs, r.isSome)
    (h : ∀ (k : Nat) (m : Bytes), rs[k]? = some (some m) → ms[k]? = some m) :
    rs.filterMap id <+: ms := by
  induction rs generalizing ms with
  | nil => exact List.nil_prefix
  | cons r rs ih =>
    obtain ⟨hr, hrs⟩ := List.forall_mem_cons.mp hsome
    obtain ⟨m, rfl⟩ := Option.isSome_iff_exists.mp hr
    have hhead : ms[0]? = some m := h 0 m rfl
    cases ms with
    | nil => cases hhead
    | cons m' ms =>
      cases hhead
      exact (List.prefix_cons_inj m).mpr (ih hrs fun k m' hk => h (k + 1) m' hk)

/-- What was let through as it is has at most one byte. -/
theorem returned_eq (hshort : ∀ h ∈ s.handled, h.frame.length ≤ 1 → h.result = some h.frame) :
    s.returned = (s.long.filterMap (·.result)).filter (1 < ·.length) := by
  unfold returned long
  generalize s.handled = hs at hshort
  induction hs with
  | nil => rfl
  | cons x hs ih =>
    obtain ⟨hx, hhs⟩ := List.forall_mem_cons.mp hshort
    by_cases hlen : x.frame.length ≤ 1
    · have hlong : ¬ 1 < x.frame.length := by omega
      rw [List.filter_cons_of_neg (by simpa using hlen), List.filterMap_cons_some (hx hlen),
        List.filter_cons_of_neg (by simpa using hlong)]
      exact ih hhs
    · rw [List.filter_cons_of_pos (by simpa using hlen)]
      cases hr : x.result with
      | none =>
        rw [List.filterMap_cons_none hr, List.filterMap_cons_none hr]
        exact ih hhs
      | some m =>
        rw [List.filterMap_cons_some hr, List.filterMap_cons_some hr, List.filter_cons, List.filter_cons, ih hhs]

theorem Inv.inOrder (h : Inv key s) (hone : Unwrapped s) : InOrder s := by
  have hplace : ∀ (k : Nat) (m : Bytes), (s.long.map (·.result))[k]? = some (some m) → s.sent[k]? = some m := by
    intro k m hk
    rw [List.getElem?_map] at hk
    obtain ⟨x, hx, hm⟩ := Option.map_eq_some_iff.mp hk
    exact h.content hone hx hm
  have hreturned : s.returned = ((s.long.map (·.result)).filterMap id).filter (1 < ·.length) := by
    rw [returned_eq h.short, List.filterMap_map]
    rfl
  refine ⟨fun k x hk => h.accepted hone hk, fun k x m hk hm => h.content hone hk hm, ?_, fun hall => ?_, ?_⟩
  · rw [hreturned]
    exact List.filter_sublist.trans (sublist_of_at_place hplace)
  · rw [hreturned]
    exact (prefix_of_at_place (List.forall_mem_map.mpr hall) hplace).filter _
  · intro e he
    obtain ⟨e', he', -, hreceived⟩ := h.receiver
    rw [he'] at he
    cases he
    exact hreceived

/-- Whatever arrives, in every state of a run in which no box is forged and before a counter has
come round: the `k`-th decrypted frame was opened exactly when it is the `k`-th box of the peer, the payloads
are a subsequence of those that were sent, without a hole as long as no frame was rejected, and the counter of
the reader is the number of the frames it has decrypted. -/
theorem inOrder_throughout (key : B.Key) (sender receiver : FramedStream B) (evs : List Event)
    (h : History.Guarded step Unforged (start key sender receiver) evs) :
    History.Throughout step (fun s => Unwrapped s → InOrder s) (start key sender receiver) evs := by
  have hinv : History.Throughout step (Inv key) (start key sender receiver) evs :=
    History.throughout_of_guarded (fun s ev => inv_step) (inv_start key sender receiver) h
  exact History.throughout_imp (fun s hs => hs.inOrder) hinv

/-- A box whose tag is its nonce. -/
theorem open_nonceBox (m nonce : Bytes) (_ : Unit) :
    (if ((nonce ++ List.replicate 16 0).take 16 ++ m).take 16 = (nonce ++ List.replicate 16 0).take 16 then
      some (((nonce ++ List.replicate 16 0).take 16 ++ m).drop 16) else none) = some m := by
  simp

theorem length_nonceBox (m nonce : Bytes) (_ : Unit) :
    ((nonce ++ List.replicate 16 0).take 16 ++ m).length = m.length + 16 := by
  simp
  omega

def nonceBox : SecretBox where
  Key := Unit
  sealBox m nonce _ := (nonce ++ List.replicate 16 0).take 16 ++ m
  openBox c nonce _ :=
    if c.take 16 = (nonce ++ List.replicate 16 0).take 16 then some (c.drop 16) else none
  openBox_sealBox := open_nonceBox
  length_sealBox := length_nonceBox

def boxed (k : UInt8) (msg : Bytes) : Bytes :=
  BytesCodec.frame ((k :: List.replicate 15 0) ++ msg)

/-- Of three messages the second is held back; the third comes in its place, then a byte on
its own and the first again. -/
def meddled : List Event :=
  [.send [5, 5], .send [6, 6], .send [7, 7], .arrive (boxed 1 [5, 5]), .next,
    .arrive (boxed 3 [7, 7]), .next, .arrive (BytesCodec.frame [9]), .next,
    .arrive (boxed 3 [7, 7]), .next, .arrive (boxed 1 [5, 5]), .next]

theorem inOrder_meddled :
    (History.run step (start (B := nonceBox) () {} {}) meddled).returned = [[5, 5], [7, 7]] ∧
      History.Throughout step (fun s => Unwrapped s → InOrder s) (start (B := nonceBox) () {} {})
        meddled :=
  ⟨by decide +kernel, inOrder_throughout _ _ _ _ (by decide +kernel)⟩

/-! ### When the counter comes round -/

def flood : Nat → List Event
  | 0 => []
  | n + 1 => .arrive (BytesCodec.frame [0, 0]) :: .next :: flood n

/-- One message was sealed and held back while `n` such frames arrived. -/
def flooded (n : Nat) : Channel nonceBox where
  sender := { encrypt := some { key := (), sent := 1 } }
  receiver := { encrypt := some { key := (), received := UInt64.ofNat n } }
  sent := [[5]]
  seals := [⟨nonceAt 0, 1 :: List.replicate 15 0 ++ [5]⟩]
  handled := List.replicate n ⟨[0, 0], none⟩

theorem nonceBox_open_short (nonce : Bytes) (key : nonceBox.Key) :
    nonceBox.openBox [0, 0] nonce key = none := by
  apply if_neg
  intro h
  have hlen := congrArg List.length h
  simp only [List.length_take, List.length_append, List.length_replicate, List.length_cons,
    List.length_nil] at hlen
  omega

theorem decode_flood : BytesCodec.decode {} (BytesCodec.frame [0, 0]) = ({}, [], .ok (some [0, 0])) := by
  decide

theorem dec_flood (e : Encrypt nonceBox) :
    e.dec [0, 0] = ({ e with received := e.received + 1 }, none) := by
  have hlong : ¬ ([0, 0] : Bytes).length ≤ 1 := by decide
  rw [Encrypt.dec, if_neg hlong]
  exact congrArg (Prod.mk _) (nonceBox_open_short _ _)

theorem received_flood (n : Nat) :
    (Stream.tcp ((flooded n).step (.arrive (BytesCodec.frame [0, 0]))).receiver).received =
      some [0, 0] := by
  simp only [Stream.received, step, FramedStream.arrive, flooded, List.nil_append, decode_flood]

theorem step_flooded (n : Nat) :
    ((flooded n).step (.arrive (BytesCodec.frame [0, 0]))).step .next = flooded (n + 1) := by
  have hreceived := received_flood n
  generalize hs : (flooded n).step (.arrive (BytesCodec.frame [0, 0])) = s at hreceived
  have hnext : s.receiver.next = ((flooded (n + 1)).receiver, some (.error .decryption)) := by
    subst hs
    simp only [FramedStream.next, step, FramedStream.arrive, flooded, List.nil_append,
      decode_flood, dec_flood, ofNat_succ]
  rw [step, hreceived, hnext, ← hs]
  simp [step, flooded, payload, List.replicate_succ']

theorem run_flood (m n : Nat) :
    History.run step (flooded m) (flood n) = flooded (m + n) ∧
      History.Guarded step Unforged (flooded m) (flood n) := by
  induction n generalizing m with
  | zero => exact ⟨rfl, trivial⟩
  | succ n ih =>
    obtain ⟨hrun, hguard⟩ := ih (m + 1)
    rw [Nat.succ_add_eq_add_succ] at hrun
    rw [← step_flooded] at hrun hguard
    refine ⟨hrun, fun hev => ?_, fun _ frame hframe hlong e _ hopen => ?_, hguard⟩
    · cases hev
    · rw [received_flood] at hframe
      cases hframe
      rw [nonceBox_open_short] at hopen
      cases hopen

/-- After a flood that brings the counter round, the held-back message. -/
def replayed (n : Nat) : List Event :=
  .send [5] :: (flood n ++ [.arrive (boxed 1 [5]), .next])

def roundReader : FramedStream nonceBox :=
  { buffer := boxed 1 [5], encrypt := some { key := (), received := 0 } }

theorem next_roundReader : payload roundReader.next.2 = some [5] := by decide +kernel

theorem received_roundReader :
    (Stream.tcp roundReader).received = some (1 :: List.replicate 15 0 ++ [5]) := by
  decide +kernel

theorem receiver_round {n : Nat} (hn : UInt64.ofNat n = 0) :
    ((flooded n).step (.arrive (boxed 1 [5]))).receiver = roundReader := by
  simp only [step, flooded, FramedStream.arrive, hn]
  rfl

theorem long_flooded (n : Nat) : (flooded n).long = List.replicate n ⟨[0, 0], none⟩ := by
  rw [long, flooded, List.filter_replicate]
  rfl

theorem run_replayed (n : Nat) (hn : UInt64.ofNat n = 0) :
    ((History.run step (start (B := nonceBox) () {} {}) (replayed n)).long[n]? =
        some ⟨1 :: List.replicate 15 0 ++ [5], some [5]⟩) ∧
      (History.run step (start (B := nonceBox) () {} {}) (replayed n)).seals.length = 1 ∧
      History.Guarded step Unforged (start (B := nonceBox) () {} {}) (replayed n) := by
  have hsend : (start (B := nonceBox) () {} {}).step (.send [5]) = flooded 0 := rfl
  obtain ⟨hrun, hguard⟩ := run_flood 0 n
  rw [Nat.zero_add] at hrun
  have hend : History.run step (start (B := nonceBox) () {} {}) (replayed n) =
      ((flooded n).step (.arrive (boxed 1 [5]))).step .next := by
    rw [replayed, History.run_cons, hsend, History.run_append, hrun]
    rfl
  have hreader := receiver_round hn
  refine ⟨?_, ?_, ?_⟩
  · have hlong : (((flooded n).step (.arrive (boxed 1 [5]))).step .next).long =
        (flooded n).long ++ [⟨1 :: List.replicate 15 0 ++ [5], some [5]⟩] := by
      have hkept : ((flooded n).step (.arrive (boxed 1 [5]))).long = (flooded n).long := rfl
      rw [← hkept]
      generalize (flooded n).step (.arrive (boxed 1 [5])) = s at hreader
      rw [step, hreader, received_roundReader, next_roundReader, long, long]
      exact List.filter_append _ _
    rw [hend, hlong, long_flooded]
    exact (List.getElem?_append_right (by rw [List.length_replicate])).trans (by simp)
  · rw [hend]
    rfl
  · refine ⟨fun hev => (by cases hev), ?_⟩
    rw [hsend]
    refine History.guarded_append hguard ?_
    rw [hrun]
    refine ⟨fun hev => (by cases hev), fun _ frame hframe _ e he _ => ?_, trivial⟩
    rw [hreader, received_roundReader] at hframe
    rw [hreader] at he
    cases hframe
    cases he
    exact List.mem_singleton.mpr rfl

/-- The payloads have a hole when a frame was rejected in between. After 2⁶⁴ frames the counter is at the
number of the first message again, and its box is opened in a place that is not its own. -/
theorem hole_and_wrap :
    (History.Guarded step Unforged (start (B := nonceBox) () {} {}) meddled ∧
      ¬ (History.run step (start (B := nonceBox) () {} {}) meddled).returned <+:
        (History.run step (start (B := nonceBox) () {} {}) meddled).sent.filter (1 < ·.length)) ∧
    ¬ ∀ (B : SecretBox) (key : B.Key) (sender receiver : FramedStream B) (evs : List Event),
      History.Guarded step Unforged (start key sender receiver) evs →
      History.Throughout step InOrder (start key sender receiver) evs := by
  refine ⟨⟨by decide +kernel, by decide +kernel⟩, fun h => ?_⟩
  obtain ⟨hlast, hseals, hguard⟩ := run_replayed (2 ^ 64) (by decide)
  have horder := History.throughout_last (h nonceBox () {} {} (replayed (2 ^ 64)) hguard)
  have haccepted := (horder.accepted _ _ hlast).mp rfl
  rw [List.getElem?_eq_none (by omega)] at haccepted
  cases haccepted

end Channel

end RustDesk.SealedOrder
