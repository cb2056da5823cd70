import RustDesk.SharedWords
import Mathlib.Algebra.Group.Nat.Defs

/-!
# Counters of the portable service

The portable service runs as another process and publishes cursors and frames in shared memory. Two
words beside them count: the writer raises the first one, and the reader, when it finds that they
differ, copies the first to the second. A word is an `i32` that is loaded or stored in one step, and
the writer and the reader take their steps in any order. A frame is published when the writer stores
its counter.

`published` counts these stores, `loaded` is how many there were when the reader last loaded the
counter of the writer, and `acknowledged` is what `loaded` was when it last stored its own. A `Look`
is a call of `counter_ready` that has returned; looks are kept newest first.

Each function has a contract with the other thread: what it relies on, what it may store and what holds
at its end.
-/

namespace RustDesk.PortableService

open SharedWords

/-! ### The functions on a counter -/

def counterReady (counter : Nat) : Prog Nat Int32 Bool := do
  let wptr := counter
  let rptr := counter + 4
  let iw ← .read wptr
  let ir ← .read rptr
  if ir ≠ iw then
    -- `copy_nonoverlapping` loads the word once more
    let w ← .read wptr
    .write rptr w
    return true
  else
    return false

def counterEqual (counter : Nat) : Prog Nat Int32 Bool := do
  let wptr := counter
  let rptr := counter + 4
  let iw ← .read wptr
  let ir ← .read rptr
  return iw == ir

def increaseCounter (counter : Nat) : Prog Nat Int32 Unit := do
  let wptr := counter
  let rptr := counter + 4
  let iw ← .read counter
  -- not from `rptr`
  let ir ← .read counter
  let iwPlus1 := if iw = Int32.maxValue then 0 else iw + 1
  .write wptr iwPlus1
  if ir = iwPlus1 then
    .write rptr iw

def runGetCursorInfo (counter : Nat) (result : Bool) : Prog Nat Int32 Unit := do
  if result then
    increaseCounter counter

/-- A round of the loop that captures; `frame` tells that there was one. -/
def runCapture (counter : Nat) (firstFrameCaptured frame : Bool) : Prog Nat Int32 Unit := do
  if firstFrameCaptured then
    if !(← counterEqual counter) then
      return
  if frame then
    increaseCounter counter

inductive Round
  | cursor (result : Bool)
  | capture (firstFrameCaptured frame : Bool)
  deriving DecidableEq, Repr

def Round.prog (counter : Nat) : Round → Prog Nat Int32 Unit
  | .cursor result => runGetCursorInfo counter result
  | .capture firstFrameCaptured frame => runCapture counter firstFrameCaptured frame

/-! ### Two threads -/

structure Shared where
  memory : Nat → Int32 := fun _ => 0
  published : Nat := 0
  loaded : Nat := 0
  acknowledged : Nat := 0

namespace Shared

variable (counter : Nat) (s : Shared)

def writerStored (p : Nat) (v : Int32) : Shared :=
  { s with
    memory := Function.update s.memory p v
    published := if p = counter then s.published + 1 else s.published }

def readerLoaded (p : Nat) : Shared := { s with loaded := if p = counter then s.published else s.loaded }

def readerStored (p : Nat) (v : Int32) : Shared :=
  { s with
    memory := Function.update s.memory p v
    acknowledged := if p = counter + 4 then s.loaded else s.acknowledged }

end Shared

/-- A call of `counter_ready`: what was published when it began and what it has still to do. -/
structure Call where
  began : Nat
  prog : Prog Nat Int32 Bool

structure Look where
  began : Nat
  ready : Bool
  shown : Nat
  deriving DecidableEq, Repr

structure State where
  shared : Shared := {}
  writer : Prog Nat Int32 Unit := .ret ()
  call : Option Call := none
  looks : List Look := []

/-- Which thread takes its next step. The round is the one a writer begins that has ended its last. -/
inductive Event
  | writer (round : Round)
  | reader
  deriving DecidableEq, Repr

namespace State

def start : State := {}

variable (counter : Nat) (s : State)

def step : Event → State
  | .writer round =>
    match s.writer with
    | .ret () => { s with writer := round.prog counter }
    | .load p k => { s with writer := k (s.shared.memory p) }
    | .store p v rest => { s with shared := s.shared.writerStored counter p v, writer := rest }
  | .reader =>
    match s.call with
    | none => { s with call := some ⟨s.shared.published, counterReady counter⟩ }
    | some ⟨began, .ret ready⟩ =>
      { s with call := none, looks := ⟨began, ready, s.shared.loaded⟩ :: s.looks }
    | some ⟨began, .load p k⟩ =>
      { s with shared := s.shared.readerLoaded counter p, call := some ⟨began, k (s.shared.memory p)⟩ }
    | some ⟨began, .store p v rest⟩ =>
      { s with shared := s.shared.readerStored counter p v, call := some ⟨began, rest⟩ }

@[simp] theorem call_writer (round : Round) : (s.step counter (.writer round)).call = s.call := by
  rcases hw : s.writer with _ | _ | _ <;> simp [step, hw]

@[simp] theorem looks_writer (round : Round) : (s.step counter (.writer round)).looks = s.looks := by
  rcases hw : s.writer with _ | _ | _ <;> simp [step, hw]

end State

/-! ### The value of a counter -/

/-- The counter after `n` increments from zero. -/
def value (n : Nat) : Int32 := Int32.ofNat (n % 2 ^ 31)

theorem toInt_value (n : Nat) : (value n).toInt = (n % 2 ^ 31 : Nat) :=
  Int32.toInt_ofNat_of_lt (Nat.mod_lt n (by decide))

theorem value_eq_iff {m n : Nat} : value m = value n ↔ m % 2 ^ 31 = n % 2 ^ 31 := by
  rw [← Int32.toInt_inj, toInt_value, toInt_value]
  omega

theorem value_inj_of_lt {m n : Nat} (hle : m ≤ n) (hlt : n < m + 2 ^ 31) : value m = value n ↔ m = n := by
  rw [value_eq_iff]
  omega

theorem value_eq_maxValue_iff (n : Nat) : value n = Int32.maxValue ↔ n % 2 ^ 31 = 2 ^ 31 - 1 := by
  rw [← Int32.toInt_inj, toInt_value, Int32.toInt_maxValue]
  omega

theorem succ_value (n : Nat) : (if value n = Int32.maxValue then 0 else value n + 1) = value (n + 1) := by
  by_cases hmax : value n = Int32.maxValue
  · have hzero : (n + 1) % 2 ^ 31 = 0 := by
      rw [value_eq_maxValue_iff] at hmax
      omega
    rw [if_pos hmax, value, hzero]
    rfl
  · have hsucc : (n + 1) % 2 ^ 31 = n % 2 ^ 31 + 1 := by
      rw [value_eq_maxValue_iff] at hmax
      omega
    rw [if_neg hmax, value, value, hsucc, Int32.ofNat_add]
    rfl

theorem value_succ_ne (n : Nat) : value n ≠ value (n + 1) := by
  rw [Ne, value_eq_iff]
  omega

/-! ### What the threads keep to -/

/-- Fewer than `room` frames are not acknowledged, and the words are the counts. -/
structure Shared.Counted (counter room : Nat) (s : Shared) : Prop where
  write : s.memory counter = value s.published
  read : s.memory (counter + 4) = value s.acknowledged
  acknowledged_le : s.acknowledged ≤ s.loaded
  loaded_le : s.loaded ≤ s.published
  lt : s.published < s.acknowledged + room

/-- A writer that waits for the reader leaves one frame, any other as many as the counter can tell. -/
def room (waits : Bool) : Nat := if waits then 2 else 2 ^ 31

theorem room_le (waits : Bool) : room waits ≤ 2 ^ 31 := by
  cases waits <;> decide

section Contracts

variable (counter : Nat) (waits : Bool)

def writerContract : Contract Shared Nat Int32 where
  value s p := s.memory p
  loaded _ s := s
  stored p v s := s.writerStored counter p v
  rely s t := s.Counted counter (room waits) →
    t.Counted counter (room waits) ∧ t.published = s.published ∧ s.acknowledged ≤ t.acknowledged
  may s p v := p = counter ∧ v = value (s.published + 1) ∧ (waits = true → s.acknowledged = s.published)
  rely_refl s hs := ⟨hs, rfl, Nat.le_refl _⟩
  rely_trans s t u hst htu hs := by
    obtain ⟨ht, hpt, hat⟩ := hst hs
    obtain ⟨hu, hpu, hau⟩ := htu ht
    exact ⟨hu, hpu.trans hpt, Nat.le_trans hat hau⟩

def readerContract : Contract Shared Nat Int32 where
  value s p := s.memory p
  loaded p s := s.readerLoaded counter p
  stored p v s := s.readerStored counter p v
  rely s t := s.Counted counter (room waits) →
    t.Counted counter (room waits) ∧ t.acknowledged = s.acknowledged ∧ t.loaded = s.loaded ∧
      s.published ≤ t.published
  may s p v := p = counter + 4 ∧ v = value s.loaded ∧ s.acknowledged < s.loaded
  rely_refl s hs := ⟨hs, rfl, rfl, Nat.le_refl _⟩
  rely_trans s t u hst htu hs := by
    obtain ⟨ht, hat, hlt, hpt⟩ := hst hs
    obtain ⟨hu, hau, hlu, hpu⟩ := htu ht
    exact ⟨hu, hau.trans hat, hlu.trans hlt, Nat.le_trans hpt hpu⟩

/-- The end of a call that began after `began` frames, of which `shown` had been shown. -/
def Answered (began shown : Nat) (ready : Bool) (s : Shared) : Prop :=
  if ready then s.acknowledged = s.loaded ∧ began ≤ s.loaded ∧ shown < s.loaded ∧ s.loaded < shown + room waits
  else s.acknowledged = shown ∧ began ≤ shown

end Contracts

section Functions

variable {counter : Nat} {waits : Bool} {s t : Shared}

theorem Shared.Counted.acknowledged_le_published (h : s.Counted counter (room waits)) :
    s.acknowledged ≤ s.published := Nat.le_trans h.acknowledged_le h.loaded_le

theorem Shared.Counted.memory_eq_iff (h : s.Counted counter (room waits)) :
    s.memory (counter + 4) = s.memory counter ↔ s.acknowledged = s.published := by
  have hroom := room_le waits
  have hlt := h.lt
  rw [h.write, h.read]
  exact value_inj_of_lt h.acknowledged_le_published (by omega)

namespace Shared.Counted

theorem writerStored (h : s.Counted counter (room waits))
    (hroom : s.published + 1 < s.acknowledged + room waits) :
    (s.writerStored counter counter (value (s.published + 1))).Counted counter (room waits) where
  write := by simp [Shared.writerStored]
  read := by simpa [Shared.writerStored] using h.read
  acknowledged_le := h.acknowledged_le
  loaded_le := by simpa [Shared.writerStored] using Nat.le_succ_of_le h.loaded_le
  lt := by simpa [Shared.writerStored] using hroom

theorem readerLoaded (h : s.Counted counter (room waits)) (p : Nat) :
    (s.readerLoaded counter p).Counted counter (room waits) := by
  have hle := h.acknowledged_le_published
  refine ⟨h.write, h.read, ?_, ?_, h.lt⟩
  · by_cases hp : p = counter
    · simpa [Shared.readerLoaded, hp] using hle
    · simpa [Shared.readerLoaded, hp] using h.acknowledged_le
  · by_cases hp : p = counter
    · simp [Shared.readerLoaded, hp]
    · simpa [Shared.readerLoaded, hp] using h.loaded_le

theorem readerStored (h : s.Counted counter (room waits)) (hnew : s.acknowledged < s.loaded) :
    (s.readerStored counter (counter + 4) (value s.loaded)).Counted counter (room waits) where
  write := by simpa [Shared.readerStored] using h.write
  read := by simp [Shared.readerStored]
  acknowledged_le := by simp [Shared.readerStored]
  loaded_le := h.loaded_le
  lt := by
    have hlt := h.lt
    simp only [Shared.readerStored, if_true]
    omega

end Shared.Counted

/-- The reader leaves the counter of the writer alone. -/
theorem writer_load {α : Type} {post : α → Shared → Prop} {p : Nat} {k : Int32 → Prog Nat Int32 α}
    (hs : s.Counted counter (room waits))
    (hk : ∀ t : Shared, t.Counted counter (room waits) → t.published = s.published →
      s.acknowledged ≤ t.acknowledged → (writerContract counter waits).Meets post (k (t.memory p)) t) :
    (writerContract counter waits).Meets post (.load p k) s := by
  intro t ht
  obtain ⟨ht, hp, ha⟩ := ht hs
  exact hk t ht hp ha

theorem increaseCounter_meets (hs : s.Counted counter (room waits))
    (hwait : waits = true → s.acknowledged = s.published) :
    (writerContract counter waits).Meets (fun _ _ => True) (increaseCounter counter) s := by
  refine writer_load hs fun t ht hpt hat => writer_load ht fun u hu hpu hau => fun w hw => ?_
  obtain ⟨hw, hpw, haw⟩ := hw hu
  have hiw : t.memory counter = value w.published := by rw [ht.write, hpw, hpu]
  have hir : u.memory counter = value w.published := by rw [hu.write, hpw]
  simp only [hiw, hir, succ_value]
  refine ⟨⟨rfl, rfl, fun h => ?_⟩, ?_⟩
  · have hle := hw.acknowledged_le_published
    have hsame := hwait h
    omega
  · -- both loads are of the counter of the writer, so the branch for the other one is not taken
    rw [if_neg (value_succ_ne _)]
    exact fun _ _ => trivial

theorem counterEqual_meets (hs : s.Counted counter (room waits)) :
    (writerContract counter waits).Meets
      (fun equal t => t.Counted counter (room waits) ∧ (equal = true → t.acknowledged = t.published))
      (counterEqual counter) s := by
  refine writer_load hs fun t ht hpt hat => writer_load ht fun u hu hpu hau => fun w hw => ?_
  obtain ⟨hw, hpw, haw⟩ := hw hu
  refine ⟨hw, fun hequal => ?_⟩
  have hwords : t.memory counter = u.memory (counter + 4) := beq_iff_eq.mp hequal
  have hsame : u.acknowledged = u.published := by
    rw [← hu.memory_eq_iff, ← hwords, ht.write, hu.write, hpu]
  have hle := hw.acknowledged_le_published
  omega

theorem runCapture_meets (hs : s.Counted counter (room waits)) {firstFrameCaptured frame : Bool}
    (hwait : waits = true → firstFrameCaptured = true ∨ s.acknowledged = s.published) :
    (writerContract counter waits).Meets (fun _ _ => True) (runCapture counter firstFrameCaptured frame) s := by
  have hincrease : ∀ t : Shared, t.Counted counter (room waits) →
      (waits = true → t.acknowledged = t.published) →
      (writerContract counter waits).Meets (fun _ _ => True)
        (if frame = true then increaseCounter counter else pure ()) t := by
    intro t ht hsame
    cases frame with
    | true => exact increaseCounter_meets ht hsame
    | false => exact fun _ _ => trivial
  cases firstFrameCaptured with
  | false => exact hincrease s hs fun h => (hwait h).resolve_left Bool.false_ne_true
  | true =>
    apply (counterEqual_meets hs).bind
    intro equal t ht
    cases equal with
    | true => exact hincrease t ht.1 fun _ => ht.2 rfl
    | false => exact fun _ _ => trivial

theorem reader_load {α : Type} {post : α → Shared → Prop} {p : Nat} {k : Int32 → Prog Nat Int32 α}
    (hs : s.Counted counter (room waits))
    (hk : ∀ t : Shared, t.Counted counter (room waits) → t.acknowledged = s.acknowledged →
      t.loaded = s.loaded → s.published ≤ t.published →
      (readerContract counter waits).Meets post (k (t.memory p)) (t.readerLoaded counter p)) :
    (readerContract counter waits).Meets post (.load p k) s := by
  intro t ht
  obtain ⟨ht, ha, hl, hp⟩ := ht hs
  exact hk t ht ha hl hp

/-- When a look finds something new, the copy takes that and what was published meanwhile. -/
theorem copy_meets {began shown : Nat} (hs : s.Counted counter (room waits)) (hshown : s.acknowledged = shown)
    (hbegan : began ≤ s.published) (hnew : shown < s.published) :
    (readerContract counter waits).Meets (Answered waits began shown)
      (.load counter fun w => .store (counter + 4) w (.ret true)) s := by
  refine reader_load hs fun t ht hat _ hpt => fun u hu => ?_
  obtain ⟨hu, hau, hlu, -⟩ := hu (ht.readerLoaded counter)
  have hlu : u.loaded = t.published := by simpa [Shared.readerLoaded] using hlu
  have hau : u.acknowledged = shown := hau.trans (hat.trans hshown)
  have hgrown : u.acknowledged < u.loaded := by omega
  have hword : t.memory counter = value u.loaded := by rw [ht.write, hlu]
  refine ⟨⟨rfl, hword, hgrown⟩, fun w hw => ?_⟩
  rw [hword] at hw
  obtain ⟨-, haw, hlw, -⟩ := hw (hu.readerStored hgrown)
  have haw : w.acknowledged = u.loaded := by simpa [readerContract, Shared.readerStored] using haw
  have hlw : w.loaded = u.loaded := hlw
  have hroom := ht.lt
  rw [Answered, if_pos rfl]
  omega

theorem counterReady_eq (counter : Nat) :
    counterReady counter = .load counter fun iw => .load (counter + 4) fun ir =>
      if ir ≠ iw then .load counter fun w => .store (counter + 4) w (.ret true) else .ret false := rfl

theorem counterReady_meets (hs : s.Counted counter (room waits)) :
    (readerContract counter waits).Meets (Answered waits s.published s.acknowledged) (counterReady counter) s := by
  rw [counterReady_eq]
  refine reader_load hs fun t ht hat _ hpt => reader_load (ht.readerLoaded counter) fun u hu hau hlu hpu => ?_
  have hau : u.acknowledged = s.acknowledged := hau.trans hat
  have hpu : t.published ≤ u.published := hpu
  have hwords : u.memory (counter + 4) = t.memory counter ↔ s.acknowledged = t.published := by
    rw [hu.read, hau, ← hat, ← ht.read]
    exact ht.memory_eq_iff
  have hle := ht.acknowledged_le_published
  by_cases hsame : s.acknowledged = t.published
  · rw [if_neg (not_not_intro (hwords.mpr hsame))]
    intro w hw
    obtain ⟨-, haw, -, -⟩ := hw (hu.readerLoaded (counter + 4))
    have haw : w.acknowledged = u.acknowledged := haw
    rw [Answered, if_neg Bool.false_ne_true]
    omega
  · rw [if_pos fun h => hsame (hwords.mp h)]
    have hnew : s.acknowledged < u.published := by omega
    exact copy_meets (hu.readerLoaded (counter + 4)) hau (Nat.le_trans hpt hpu) hnew

theorem round_meets (hs : s.Counted counter (room waits)) {round : Round}
    (hwait : waits = true → (∃ frame, round = .capture true frame) ∨ s.acknowledged = s.published) :
    (writerContract counter waits).Meets (fun _ _ => True) (round.prog counter) s := by
  cases round with
  | cursor result =>
    cases result with
    | true =>
      refine increaseCounter_meets hs fun h => (hwait h).resolve_left ?_
      rintro ⟨_, heq⟩
      cases heq
    | false => exact fun _ _ => trivial
  | capture firstFrameCaptured frame =>
    refine runCapture_meets hs fun h => (hwait h).imp_left ?_
    rintro ⟨_, heq⟩
    cases heq
    rfl

end Functions

end RustDesk.PortableService
