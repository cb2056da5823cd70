import RustDesk.FramedStream
import RustDesk.History
import Mathlib.Data.List.Nodup

/-!
# The nonces of a session

The two ends of a session use one key. Each numbers the messages it seals from one on, and
the nonce of a message is its number. An end does not know what the other one has sealed.
-/

namespace RustDesk.Session

inductive Side
  | client
  | server
  deriving DecidableEq, Repr

def Side.other : Side → Side
  | .client => .server
  | .server => .client

/-- A call of `secretbox::seal`. -/
structure Seal where
  side : Side
  nonce : Bytes
  deriving DecidableEq, Repr

variable {B : SecretBox}

/-- The two ends of a session, and the calls they made, newest first. -/
structure Ends (B : SecretBox) where
  cipher : Side → Encrypt B
  seals : List Seal := []

inductive Event
  | send (side : Side) (data : Bytes)
  | receive (side : Side) (bytes : Bytes)
  deriving DecidableEq, Repr

/-- The nonce with which `enc` seals. -/
def sealNonce (e : Encrypt B) : Bytes := getNonce (e.sent + 1)

namespace Ends

/-- Both ends have called `set_key`. -/
def start (key : B.Key) : Ends B where
  cipher _ := { key }

def step (s : Ends B) : Event → Ends B
  | .send side data =>
    { cipher := Function.update s.cipher side ((s.cipher side).enc data).1
      seals := ⟨side, sealNonce (s.cipher side)⟩ :: s.seals }
  | .receive side bytes =>
    { s with cipher := Function.update s.cipher side ((s.cipher side).dec bytes).1 }

def noncesOf (s : Ends B) (side : Side) : List Bytes :=
  (s.seals.filter (·.side = side)).map (·.nonce)

end Ends

def sends (side : Side) (evs : List Event) : Nat :=
  evs.countP fun
    | .send side' _ => side' = side
    | .receive .. => false

/-- The nonces of the messages up to the number, newest first. -/
def numbered : Nat → List Bytes
  | 0 => []
  | n + 1 => getNonce (UInt64.ofNat (n + 1)) :: numbered n

/-! ### The numbers of one end -/

theorem mem_numbered {n : Nat} {nonce : Bytes} :
    nonce ∈ numbered n ↔ ∃ i, 1 ≤ i ∧ i ≤ n ∧ nonce = getNonce (UInt64.ofNat i) := by
  induction n with
  | zero =>
    constructor
    · intro h
      cases h
    · rintro ⟨i, hone, hle, -⟩
      omega
  | succ n ih =>
    rw [numbered, List.mem_cons, ih]
    constructor
    · rintro (rfl | ⟨i, hone, hle, hi⟩)
      · exact ⟨n + 1, by omega, Nat.le_refl _, rfl⟩
      · exact ⟨i, hone, by omega, hi⟩
    · rintro ⟨i, hone, hle, hi⟩
      by_cases hin : i = n + 1
      · subst hin
        exact .inl hi
      · exact .inr ⟨i, hone, by omega, hi⟩

theorem getNonce_injective {i j : Nat} (hi : i < 2 ^ 64) (hj : j < 2 ^ 64)
    (h : getNonce (UInt64.ofNat i) = getNonce (UInt64.ofNat j)) : i = j := by
  have hnat := congrArg UInt64.toNat (getNonce_inj h)
  rwa [UInt64.toNat_ofNat_of_lt' hi, UInt64.toNat_ofNat_of_lt' hj] at hnat

theorem nodup_numbered {n : Nat} (h : n < 2 ^ 64) : (numbered n).Nodup := by
  induction n with
  | zero => exact List.nodup_nil
  | succ n ih =>
    refine List.nodup_cons.mpr ⟨fun hmem => ?_, ih (by omega)⟩
    obtain ⟨i, -, hle, hi⟩ := mem_numbered.mp hmem
    have := getNonce_injective h (by omega) hi
    omega

namespace Ends

/-- Each end has sealed as many messages as it has counted. -/
def Numbered (n : Side → Nat) (s : Ends B) : Prop :=
  ∀ side, (s.cipher side).sent = UInt64.ofNat (n side) ∧ s.noncesOf side = numbered (n side)

theorem numbered_send {n : Side → Nat} {s : Ends B} (h : Numbered n s) (side : Side)
    (data : Bytes) : Numbered (Function.update n side (n side + 1)) (s.step (.send side data)) := by
  intro x
  obtain ⟨hsent, hnonces⟩ := h x
  by_cases hx : x = side
  · subst hx
    have hnext : UInt64.ofNat (n x) + 1 = UInt64.ofNat (n x + 1) := (UInt64.ofNat_add _ _).symm
    have hfilter : (s.step (.send x data)).noncesOf x =
        sealNonce (s.cipher x) :: s.noncesOf x := by
      simp [step, noncesOf]
    have hcipher : ((s.step (.send x data)).cipher x).sent = (s.cipher x).sent + 1 := by
      simp [step, Encrypt.enc]
    rw [hcipher, hfilter, Function.update_self, hnonces, hsent]
    refine ⟨hnext, ?_⟩
    rw [sealNonce, hsent, hnext]
    rfl
  · have hfilter : (s.step (.send side data)).noncesOf x = s.noncesOf x := by
      simp [step, noncesOf, Ne.symm hx]
    have hcipher : (s.step (.send side data)).cipher x = s.cipher x := by
      simp [step, Function.update_of_ne hx]
    rw [hcipher, hfilter, Function.update_of_ne hx]
    exact ⟨hsent, hnonces⟩

theorem sent_dec (e : Encrypt B) (bytes : Bytes) : (e.dec bytes).1.sent = e.sent := by
  unfold Encrypt.dec
  split <;> rfl

theorem numbered_receive {n : Side → Nat} {s : Ends B} (h : Numbered n s) (side : Side)
    (bytes : Bytes) : Numbered n (s.step (.receive side bytes)) := by
  intro x
  obtain ⟨hsent, hnonces⟩ := h x
  refine ⟨?_, hnonces⟩
  by_cases hx : x = side
  · subst hx
    simp only [step, Function.update_self, sent_dec]
    exact hsent
  · simp only [step, Function.update_of_ne hx]
    exact hsent

theorem numbered_run {n : Side → Nat} {s : Ends B} (h : Numbered n s) (evs : List Event) :
    Numbered (fun side => n side + sends side evs) (History.run step s evs) := by
  induction evs generalizing n s with
  | nil => exact h
  | cons ev evs ih =>
    cases ev with
    | send side data =>
      have hrun := ih (numbered_send h side data)
      have hcount : (fun x => Function.update n side (n side + 1) x + sends x evs) =
          fun x => n x + sends x (.send side data :: evs) := by
        funext x
        by_cases hx : x = side
        · subst hx
          simp [sends]
          omega
        · simp [sends, Function.update_of_ne hx, Ne.symm hx]
      rw [hcount] at hrun
      exact hrun
    | receive side bytes =>
      have hrun := ih (numbered_receive h side bytes)
      have hcount : (fun x => n x + sends x evs) =
          fun x => n x + sends x (.receive side bytes :: evs) := by
        funext x
        simp [sends]
      rw [hcount] at hrun
      exact hrun

theorem noncesOf_run (key : B.Key) (evs : List Event) (side : Side) :
    (History.run step (start key) evs).noncesOf side = numbered (sends side evs) := by
  have hstart : Numbered (fun _ => 0) (start key) := fun _ => ⟨rfl, rfl⟩
  have hrun := (numbered_run hstart evs side).2
  dsimp only at hrun
  rwa [Nat.zero_add] at hrun

/-- An end that has sealed anything has used the nonce of the first message. -/
theorem first_nonce_mem (key : B.Key) {evs : List Event} {side : Side} (h : sends side evs ≠ 0) :
    ⟨side, getNonce 1⟩ ∈ (History.run step (start key) evs).seals := by
  have hmem : getNonce 1 ∈ (History.run step (start key) evs).noncesOf side := by
    rw [noncesOf_run, mem_numbered]
    exact ⟨1, Nat.le_refl 1, by omega, rfl⟩
  obtain ⟨call, hcall, hnonce⟩ := List.mem_map.mp hmem
  obtain ⟨hcall, hside⟩ := List.mem_filter.mp hcall
  have heq : call = ⟨side, getNonce 1⟩ := by
    obtain ⟨s, nonce⟩ := call
    have hs : s = side := of_decide_eq_true hside
    subst hs hnonce
    rfl
  rwa [heq] at hcall

theorem nodup_of_one_side (key : B.Key) {evs : List Event} {side : Side}
    (hnone : sends side.other evs = 0) (hlt : sends side evs < 2 ^ 64) :
    ((History.run step (start key) evs).seals.map (·.nonce)).Nodup := by
  have hall : ∀ call ∈ (History.run step (start key) evs).seals, call.side = side := by
    intro call hcall
    by_contra hne
    have hother : call.side = side.other := by
      cases hc : call.side <;> cases side <;> simp_all [Side.other]
    have hmem : call.nonce ∈ (History.run step (start key) evs).noncesOf side.other :=
      List.mem_map.mpr ⟨call, List.mem_filter.mpr ⟨hcall, by simpa using hother⟩, rfl⟩
    rw [noncesOf_run, hnone] at hmem
    cases hmem
  have hfilter : (History.run step (start key) evs).seals.filter (·.side = side) =
      (History.run step (start key) evs).seals :=
    List.filter_eq_self.mpr fun call hcall => by simpa using hall call hcall
  have hnonces := noncesOf_run key evs side
  unfold noncesOf at hnonces
  rw [hfilter] at hnonces
  rw [hnonces]
  exact nodup_numbered hlt

/-- For every interleaving of what the two ends send and receive, as long as no end sends
2 ^ 64 messages, no nonce is used twice exactly when one of the ends sends nothing. -/
theorem nonces_nodup_iff (key : B.Key) (evs : List Event) (hlt : ∀ side, sends side evs < 2 ^ 64) :
    ((History.run step (start key) evs).seals.map (·.nonce)).Nodup ↔
      sends .client evs = 0 ∨ sends .server evs = 0 := by
  constructor
  · intro h
    by_contra hboth
    rw [not_or] at hboth
    have heq := List.inj_on_of_nodup_map h (first_nonce_mem key hboth.1)
      (first_nonce_mem key hboth.2) rfl
    cases heq
  · rintro (hnone | hnone)
    · have hother : sends (Side.other .server) evs = 0 := hnone
      exact nodup_of_one_side key hother (hlt .server)
    · have hother : sends (Side.other .client) evs = 0 := hnone
      exact nodup_of_one_side key hother (hlt .client)

/-- A session in which only the client sends. -/
theorem nonces_nodup_oneWay :
    ((History.run step (start (bytesKey [7]))
      [.send .client [1], .receive .server [2, 3], .send .client [4]]).seals.map (·.nonce)).Nodup := by
  refine (nonces_nodup_iff (bytesKey [7]) _ fun side => ?_).mpr (.inr (by decide))
  cases side <;> decide

/-- The first messages of the two ends have the same nonce. -/
theorem first_nonces_collide :
    ¬ ∀ (B : SecretBox) (key : B.Key) (evs : List Event), (∀ side, sends side evs < 2 ^ 64) →
      ((History.run step (start key) evs).seals.map (·.nonce)).Nodup := by
  intro h
  have hnodup := h tagBox (bytesKey [7]) [.send .client [1], .send .server [2]] fun side => by
    cases side <;> decide
  revert hnodup
  decide

end Ends

end RustDesk.Session
