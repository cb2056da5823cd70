import RustDesk.History
import RustDesk.Message
import Mathlib.Data.List.ReduceOption
import Mathlib.Tactic.Ring

/-!
# The buffer of samples

What the decoder gives is appended to a ring buffer, and the device takes it out in a callback of its own.
Every twelve seconds the thread of the decoder looks how full the buffer has been, and drops some of it. Then
the channels must not change places, and the device must not be left without samples.

The samples are of any type. The buffer has the format of the device, and is empty when the device starts.
-/

namespace RustDesk.AudioBuffer

open History (run Guarded Throughout)

def audioBufferMs : Nat := 3000

def capacity (rate channels : Nat) : Nat := rate * channels * audioBufferMs / 1000

/-- What was dropped, after how much there had been each time since the drop before, and how much there was. -/
structure Drop where
  skip : Nat
  havings : List Nat
  present : Nat
  deriving DecidableEq, Repr

/-- Two thirds of the least that was there, up to the rounding to pairs, and less than a third of what is. -/
def Drop.Spares (d : Drop) : Prop := (∀ h ∈ d.havings, 3 * d.skip ≤ 2 * h + 3) ∧ 3 * d.skip < d.present

/-- `marks` are the counts of the tenths of a second that were there. `having` is set between `append_pcm2` and
`try_shrink`. -/
structure State (α : Type) where
  rb : List α := []
  marks : List Nat := List.replicate 30 0
  having : Option Nat := none
  received : List α := []
  played : List (Option α) := []
  havings : List Nat := []
  drops : List Drop := []
  deriving DecidableEq, Repr

/-- `due` says that twelve seconds have passed, by a clock that all sessions share. -/
inductive Event (α : Type)
  | appendPcm2 (pcm : List α)
  | tryShrink (due : Bool)
  | callback (n : Nat)
  deriving DecidableEq, Repr

/-- `push_slice_overwrite` -/
def pushSliceOverwrite {α : Type} (cap : Nat) (rb pcm : List α) : List α :=
  (rb ++ pcm).drop ((rb ++ pcm).length - cap)

/-- The loop over the marks: the marks that are empty from below, the one that is largest, and what is left. -/
def evaluate (marks : List Nat) (n : Nat) : Nat × Nat × List Nat :=
  (List.range n).foldl (fun (empty, max, marks) i =>
    let empty := if marks.getD i 0 = 0 && empty = i then empty + 1 else empty
    if marks.getD i 0 > marks.getD max 0 then (empty, i, marks.set max 0) else (empty, max, marks.set i 0))
    (0, 0, marks)

/-- `& (!1)` of the samples that the marks stand for, and one. -/
def skipOf (cap max : Nat) : Nat := (cap * max / (30 * 4) + 1) / 2 * 2

namespace State

section

variable {α : Type} (rate channels : Nat) (s : State α)

def appendPcm2 (pcm : List α) : State α :=
  let cap := capacity rate channels
  let s := { s with received := s.received ++ pcm }
  if pcm.length > cap then { s with rb := pushSliceOverwrite cap s.rb pcm, having := some cap }
  else
    let having := s.rb.length + pcm.length
    let rb := if having > cap then s.rb.drop (having - cap) else s.rb
    let rb := pushSliceOverwrite cap rb pcm
    { s with rb, having := some rb.length }

/-- The mark of what is there. -/
def mark (having : Nat) : Nat := min (having * 10 / (rate * channels)) 29

def skip (max : Nat) : State α :=
  let skip := skipOf (capacity rate channels) max
  if s.rb.length > skip * 3 ∧ skip > 0 then
    { s with rb := s.rb.drop skip, drops := ⟨skip, s.havings, s.rb.length⟩ :: s.drops }
  else s

def count (having : Nat) : State α :=
  let i := mark rate channels having
  { s with marks := s.marks.set i (s.marks.getD i 0 + 1), having := none, havings := having :: s.havings }

/-- What `try_shrink` does every twelve seconds. -/
def shrink : State α :=
  let (empty, max, marks) := evaluate s.marks 30
  let empty := empty * 2 / 3
  let s := { s with marks := marks.set max 0 }
  if max < 6 then { s with havings := [] }
  else { s.skip rate channels (if max > empty * 4 then empty * 4 else max) with havings := [] }

def tryShrink (having : Nat) (due : Bool) : State α :=
  let s := s.count rate channels having
  if !due then s else s.shrink rate channels

/-- A device that asks for more than is there gets silence. -/
def callback (n : Nat) : State α :=
  let having := s.rb.length
  let m := if having < n then having else n
  { s with rb := s.rb.drop m,
           played := s.played ++ (s.rb.take m).map some ++ List.replicate (n - m) none }

def step : Event α → State α
  | .appendPcm2 pcm => if s.having = none then s.appendPcm2 rate channels pcm else s
  | .tryShrink due =>
    match s.having with
    | some having => s.tryShrink rate channels having due
    | none => s
  | .callback n => s.callback n

end

/-- The device reads whole frames, and gets them. -/
def Whole (channels : Nat) : Event α → Prop
  | .appendPcm2 pcm => channels ∣ pcm.length
  | .tryShrink _ => True
  | .callback n => channels ∣ n

instance (channels : Nat) : ∀ e : Event α, Decidable (Whole channels e)
  | .appendPcm2 _ | .callback _ => inferInstanceAs (Decidable (_ ∣ _))
  | .tryShrink _ => .isTrue trivial

/-- A frame, or one of silence, as the device has it. -/
def output (channels : Nat) : Option (List α) → List (Option α)
  | some frame => frame.map some
  | none => List.replicate channels none

/-- What was played, and what is still there, are frames that were received, in their order. -/
def InOrder (channels : Nat) (s : State α) : Prop :=
  ∃ (received buffered : List (List α)) (played : List (Option (List α))),
    (∀ frame ∈ received, frame.length = channels) ∧ s.received = received.flatten ∧
      s.rb = buffered.flatten ∧ s.played = played.flatMap (output channels) ∧
      (played.reduceOption ++ buffered).Sublist received

/-- There are at most three seconds, and what is dropped is spared. -/
structure Spared (rate channels : Nat) (s : State α) : Prop where
  room : s.rb.length ≤ capacity rate channels
  drops : ∀ d ∈ s.drops, d.Spares

end State

/-! ### Frames -/

section

variable {α : Type} {channels : Nat}

theorem exists_frames (k : Nat) : ∀ l : List α, l.length = k * channels →
    ∃ frames : List (List α), l = frames.flatten ∧ ∀ frame ∈ frames, frame.length = channels := by
  induction k with
  | zero =>
    intro l hlength
    rw [Nat.zero_mul] at hlength
    exact ⟨[], List.length_eq_zero_iff.mp hlength, fun _ hf => absurd hf List.not_mem_nil⟩
  | succ k ih =>
    intro l hlength
    rw [Nat.succ_mul] at hlength
    obtain ⟨frames, hrest, hframes⟩ := ih (l.drop channels) (by rw [List.length_drop, hlength]; omega)
    refine ⟨l.take channels :: frames, ?_, fun frame hframe => ?_⟩
    · rw [List.flatten_cons, ← hrest, List.take_append_drop]
    · rcases List.mem_cons.mp hframe with rfl | hframe
      · rw [List.length_take, hlength]
        omega
      · exact hframes frame hframe

theorem length_flatten_frames {frames : List (List α)} (h : ∀ frame ∈ frames, frame.length = channels) :
    frames.flatten.length = frames.length * channels := by
  induction frames with
  | nil => rw [List.flatten_nil, List.length_nil, List.length_nil, Nat.zero_mul]
  | cons frame frames ih =>
    rw [List.flatten_cons, List.length_append, h frame List.mem_cons_self,
      ih fun f hf => h f (List.mem_cons_of_mem _ hf), List.length_cons, Nat.succ_mul, Nat.add_comm]

theorem drop_flatten_frames (k : Nat) : ∀ {frames : List (List α)},
    (∀ frame ∈ frames, frame.length = channels) →
      frames.flatten.drop (k * channels) = (frames.drop k).flatten := by
  induction k with
  | zero =>
    intro frames _
    rw [Nat.zero_mul, List.drop_zero, List.drop_zero]
  | succ k ih =>
    intro frames h
    cases frames with
    | nil => rw [List.flatten_nil, List.drop_nil, List.drop_nil, List.flatten_nil]
    | cons frame frames =>
      have hframe := h frame List.mem_cons_self
      rw [List.flatten_cons, List.drop_succ_cons, ← ih fun f hf => h f (List.mem_cons_of_mem _ hf), Nat.succ_mul,
        Nat.add_comm, ← List.drop_drop, List.drop_left' hframe]

theorem take_flatten_frames (k : Nat) : ∀ {frames : List (List α)},
    (∀ frame ∈ frames, frame.length = channels) →
      frames.flatten.take (k * channels) = (frames.take k).flatten := by
  induction k with
  | zero =>
    intro frames _
    rw [Nat.zero_mul, List.take_zero, List.take_zero, List.flatten_nil]
  | succ k ih =>
    intro frames h
    cases frames with
    | nil => rw [List.flatten_nil, List.take_nil, List.take_nil, List.flatten_nil]
    | cons frame frames =>
      have hframe := h frame List.mem_cons_self
      rw [List.flatten_cons, List.take_succ_cons, List.flatten_cons,
        ← ih fun f hf => h f (List.mem_cons_of_mem _ hf), Nat.succ_mul, Nat.add_comm, List.take_append,
        List.take_of_length_le (by omega), hframe, Nat.add_sub_cancel_left]

end

/-! ### What the steps do to the buffer -/

theorem capacity_eq (rate channels : Nat) : capacity rate channels = 3 * (rate * channels) := by
  unfold capacity audioBufferMs
  omega

namespace State

section

variable {α : Type} {rate channels : Nat} {s : State α}

theorem rb_appendPcm2 (pcm : List α) :
    (s.appendPcm2 rate channels pcm).rb = pushSliceOverwrite (capacity rate channels) s.rb pcm := by
  unfold appendPcm2
  dsimp only
  by_cases hlong : pcm.length > capacity rate channels
  · rw [if_pos hlong]
  · rw [if_neg hlong]
    dsimp only
    by_cases hover : s.rb.length + pcm.length > capacity rate channels
    · rw [if_pos hover]
      unfold pushSliceOverwrite
      have hfits : (s.rb.drop (s.rb.length + pcm.length - capacity rate channels) ++ pcm).length -
          capacity rate channels = 0 := by
        rw [List.length_append, List.length_drop]
        omega
      rw [hfits, List.drop_zero, List.length_append, List.drop_append_of_le_length (by omega)]
    · rw [if_neg hover]

theorem length_pushSliceOverwrite (cap : Nat) (rb pcm : List α) :
    (pushSliceOverwrite cap rb pcm).length ≤ cap := by
  unfold pushSliceOverwrite
  rw [List.length_drop]
  omega

@[simp] theorem received_skip (s : State α) (max : Nat) :
    (s.skip rate channels max).received = s.received := by
  unfold skip
  dsimp only
  split <;> rfl

@[simp] theorem played_skip (s : State α) (max : Nat) : (s.skip rate channels max).played = s.played := by
  unfold skip
  dsimp only
  split <;> rfl

theorem rb_skip (s : State α) (max : Nat) :
    (s.skip rate channels max).rb = s.rb ∨
      (s.skip rate channels max).rb = s.rb.drop (skipOf (capacity rate channels) max) := by
  unfold skip
  dsimp only
  split
  · exact .inr rfl
  · exact .inl rfl

/-- `tryShrink` drops nothing, or what `skip` does. -/
theorem rb_tryShrink (s : State α) (having : Nat) (due : Bool) :
    (s.tryShrink rate channels having due).received = s.received ∧
      (s.tryShrink rate channels having due).played = s.played ∧
      ((s.tryShrink rate channels having due).rb = s.rb ∨
        ∃ max, (s.tryShrink rate channels having due).rb = s.rb.drop (skipOf (capacity rate channels) max)) := by
  unfold tryShrink
  dsimp only
  split
  · exact ⟨rfl, rfl, .inl rfl⟩
  · unfold shrink
    generalize evaluate (s.count rate channels having).marks 30 = found
    obtain ⟨empty, max, marks⟩ := found
    dsimp only
    split
    · exact ⟨rfl, rfl, .inl rfl⟩
    · refine ⟨received_skip _ _, played_skip _ _, ?_⟩
      exact (rb_skip _ _).imp id fun hrb => ⟨_, hrb⟩

end

/-! ### The order of the frames -/

section

variable {α : Type} {rate channels : Nat} {s s' : State α}

/-- What is dropped is in pairs of samples, and at most rates it is whole numbers of frames anyway. -/
theorem dvd_skipOf (hformat : channels ∣ 2 ∨ 80 ∣ rate) (max : Nat) :
    channels ∣ skipOf (capacity rate channels) max := by
  rcases hformat with htwo | ⟨r, rfl⟩
  · exact Nat.dvd_trans htwo (Nat.dvd_mul_left 2 _)
  · have hskip : skipOf (capacity (80 * r) channels) max = channels * (2 * (r * max)) := by
      have hcap : capacity (80 * r) channels * max = 240 * (channels * (r * max)) := by
        rw [capacity_eq]
        ring
      have hdouble : channels * (2 * (r * max)) = 2 * (channels * (r * max)) := by ring
      unfold skipOf
      rw [hcap, hdouble]
      omega
    exact hskip ▸ Nat.dvd_mul_right channels _

theorem dvd_capacity (rate channels : Nat) : channels ∣ capacity rate channels := by
  rw [capacity_eq]
  exact Nat.dvd_mul_left_of_dvd (Nat.dvd_mul_left channels rate) 3

/-- The frames at the front may be left out. -/
theorem InOrder.drop (h : InOrder channels s) {n : Nat} (hn : channels ∣ n) (hreceived : s'.received = s.received)
    (hplayed : s'.played = s.played) (hrb : s'.rb = s.rb.drop n) : InOrder channels s' := by
  obtain ⟨received, buffered, played, hframes, hr, hb, hp, horder⟩ := h
  obtain ⟨k, rfl⟩ := hn
  have hbuffered : ∀ frame ∈ buffered, frame.length = channels := fun frame hf =>
    hframes frame (horder.subset (List.mem_append_right _ hf))
  refine ⟨received, buffered.drop k, played, hframes, hreceived.trans hr, ?_, hplayed.trans hp, ?_⟩
  · rw [hrb, hb, Nat.mul_comm, drop_flatten_frames k hbuffered]
  · exact ((List.Sublist.refl _).append (List.drop_sublist k buffered)).trans horder

theorem InOrder.appendPcm2 (h : InOrder channels s) {pcm : List α}
    (hpcm : channels ∣ pcm.length) : InOrder channels (s.appendPcm2 rate channels pcm) := by
  obtain ⟨received, buffered, played, hframes, hr, hb, hp, horder⟩ := h
  obtain ⟨n, hn⟩ := hpcm
  obtain ⟨new, rfl, hnew⟩ := exists_frames n pcm (hn.trans (Nat.mul_comm _ _))
  -- the new frames are received and buffered; what is too much is dropped as from any buffer
  have hall : InOrder channels { s with received := s.received ++ new.flatten, rb := s.rb ++ new.flatten } := by
    refine ⟨received ++ new, buffered ++ new, played, fun frame hf => ?_, ?_, ?_, hp, ?_⟩
    · exact (List.mem_append.mp hf).elim (hframes frame) (hnew frame)
    · rw [hr, List.flatten_append]
    · rw [hb, List.flatten_append]
    · rw [← List.append_assoc]
      exact horder.append (List.Sublist.refl new)
  have hwhole : channels ∣ (s.rb ++ new.flatten).length := by
    have hbuffered : ∀ frame ∈ buffered ++ new, frame.length = channels := fun frame hf =>
      (List.mem_append.mp hf).elim
        (fun hf => hframes frame (horder.subset (List.mem_append_right _ hf))) (hnew frame)
    rw [hb, ← List.flatten_append, length_flatten_frames hbuffered]
    exact Nat.dvd_mul_left channels _
  refine hall.drop (Nat.dvd_sub hwhole (dvd_capacity rate channels)) ?_ ?_ (rb_appendPcm2 _)
  · unfold State.appendPcm2
    dsimp only
    split <;> rfl
  · unfold State.appendPcm2
    dsimp only
    split <;> rfl

theorem reduceOption_map_some {β : Type} (l : List β) : (l.map some).reduceOption = l := by
  induction l with
  | nil => rfl
  | cons b l ih => rw [List.map_cons, List.reduceOption_cons_of_some, ih]

theorem flatMap_output_some (frames : List (List α)) :
    (frames.map some).flatMap (output channels) = frames.flatten.map some := by
  induction frames with
  | nil => rfl
  | cons frame frames ih =>
    rw [List.map_cons, List.flatMap_cons, ih, List.flatten_cons, List.map_append]
    rfl

theorem flatMap_output_none (k : Nat) :
    (List.replicate k (none : Option (List α))).flatMap (output channels) =
      List.replicate (k * channels) none := by
  induction k with
  | zero => rw [Nat.zero_mul, List.replicate_zero, List.flatMap_nil, List.replicate_zero]
  | succ k ih =>
    rw [List.replicate_succ, List.flatMap_cons, ih, Nat.succ_mul, Nat.add_comm, List.replicate_add]
    rfl

theorem InOrder.callback (h : InOrder channels s) {n : Nat} (hn : channels ∣ n) :
    InOrder channels (s.callback n) := by
  obtain ⟨received, buffered, played, hframes, hr, hb, hp, horder⟩ := h
  obtain ⟨k, rfl⟩ := hn
  have hbuffered : ∀ frame ∈ buffered, frame.length = channels := fun frame hf =>
    hframes frame (horder.subset (List.mem_append_right _ hf))
  have hlength : s.rb.length = buffered.length * channels := by
    rw [hb, length_flatten_frames hbuffered]
  have hmin : (if s.rb.length < channels * k then s.rb.length else channels * k) =
      min buffered.length k * channels := by
    rw [hlength, Nat.mul_comm channels k, ← Nat.mul_min_mul_right]
    split <;> omega
  refine ⟨received, buffered.drop (min buffered.length k),
    played ++ (buffered.take (min buffered.length k)).map some ++ List.replicate (k - min buffered.length k) none,
    hframes, hr, ?_, ?_, ?_⟩
  · unfold State.callback
    dsimp only
    rw [hmin, hb, drop_flatten_frames _ hbuffered]
  · unfold State.callback
    dsimp only
    rw [hmin, hp, hb, take_flatten_frames _ hbuffered, List.flatMap_append, List.flatMap_append,
      flatMap_output_some, flatMap_output_none, Nat.sub_mul, Nat.mul_comm channels k]
  · rw [List.reduceOption_append, List.reduceOption_append, reduceOption_map_some,
      List.reduceOption_replicate_none, List.append_nil, List.append_assoc, List.take_append_drop]
    exact horder

theorem InOrder.step (hformat : channels ∣ 2 ∨ 80 ∣ rate) {event : Event α} (hevent : Whole channels event)
    (h : InOrder channels s) : InOrder channels (s.step rate channels event) := by
  unfold State.step
  cases event with
  | appendPcm2 pcm =>
    dsimp only
    split
    · exact h.appendPcm2 hevent
    · exact h
  | tryShrink due =>
    dsimp only
    split
    · rename_i having _
      obtain ⟨hreceived, hplayed, hrb | ⟨max, hrb⟩⟩ :=
        @rb_tryShrink α rate channels s having due
      · exact h.drop (Nat.dvd_zero channels) hreceived hplayed (hrb.trans List.drop_zero.symm)
      · exact h.drop (dvd_skipOf hformat max) hreceived hplayed hrb
    · exact h
  | callback n => exact h.callback hevent

/-- In every interleaving of appending, shrinking and playing, where the decoder and the device have whole
frames: what is played and what waits are received frames in the order of receiving, with silence only for
whole frames. So the channels never change places, whatever is dropped. -/
theorem audio_in_order (hformat : channels ∣ 2 ∨ 80 ∣ rate) (events : List (Event α))
    (hwhole : ∀ event ∈ events, Whole channels event) :
    Throughout (State.step rate channels) (InOrder channels) ({} : State α) events := by
  have hinit : InOrder channels ({} : State α) :=
    ⟨[], [], [], fun _ hf => absurd hf List.not_mem_nil, rfl, rfl, rfl, List.Sublist.refl _⟩
  have hguarded : Guarded (State.step rate channels) (fun _ event => Whole channels event) ({} : State α) events :=
    History.guarded_of_mem hwhole
  exact History.throughout_of_guarded (fun _ _ hs hevent => hs.step hformat hevent) hinit hguarded

/-- The first samples are dropped, and three frames of silence are played at the end. -/
theorem audio_in_order_dropped :
    (run (State.step 10 2) {} [.appendPcm2 (List.range 40), .tryShrink true, .callback 36]).played =
        (List.range' 10 30).map some ++ List.replicate 6 none ∧
      Throughout (State.step 10 2) (InOrder 2) {}
        [.appendPcm2 (List.range 40), .tryShrink true, .callback 36] :=
  ⟨by decide, audio_in_order (.inl (by decide)) _ (by decide)⟩

end

end State

/-! ### The marks -/

/-- What the loop has found after the marks below `n`. -/
structure Scanned (marks : List Nat) (n : Nat) (found : Nat × Nat × List Nat) : Prop where
  empty : found.1 ≤ n
  zeros : ∀ j < found.1, marks.getD j 0 = 0
  max : found.2.1 ≤ n
  later : ∀ j, n ≤ j → found.2.2.getD j 0 = marks.getD j 0
  length : found.2.2.length = marks.length

theorem getD_set_zero_of_ne {marks : List Nat} {i j : Nat} (h : i ≠ j) :
    (marks.set i 0).getD j 0 = marks.getD j 0 := by
  rw [List.getD_eq_getElem?_getD, List.getElem?_set_ne h, List.getD_eq_getElem?_getD]

theorem scanned_evaluate (marks : List Nat) (n : Nat) : Scanned marks n (evaluate marks n) := by
  induction n with
  | zero => exact ⟨Nat.le_refl 0, fun j hj => absurd hj (Nat.not_lt_zero j), Nat.le_refl 0, fun _ _ => rfl, rfl⟩
  | succ n ih =>
    unfold evaluate at ih ⊢
    rw [List.range_succ, List.foldl_append, List.foldl_cons, List.foldl_nil]
    revert ih
    generalize List.foldl _ (0, 0, marks) (List.range n) = found
    obtain ⟨empty, max, left⟩ := found
    rintro ⟨hempty, hzeros, hmax, hlater, hlength⟩
    dsimp only at hempty hzeros hmax hlater hlength ⊢
    have hat := hlater n (Nat.le_refl n)
    -- the count of the empty marks grows only while it is where the loop is
    have hcount : ∀ next, (if left.getD n 0 = 0 && empty = n then empty + 1 else empty) = next →
        next ≤ n + 1 ∧ ∀ j < next, marks.getD j 0 = 0 := by
      rintro next rfl
      split
      · rename_i hfree
        rw [Bool.and_eq_true, decide_eq_true_eq, decide_eq_true_eq, hat] at hfree
        refine ⟨by omega, fun j hj => ?_⟩
        rcases Nat.lt_succ_iff_lt_or_eq.mp hj with hj | rfl
        · exact hzeros j hj
        · exact hfree.2 ▸ hfree.1
      · exact ⟨by omega, hzeros⟩
    have hkept : ∀ i ≤ n, ∀ j, n + 1 ≤ j → (left.set i 0).getD j 0 = marks.getD j 0 := by
      intro i hi j hj
      rw [getD_set_zero_of_ne (by omega)]
      exact hlater j (by omega)
    split
    · exact ⟨(hcount _ rfl).1, (hcount _ rfl).2, Nat.le_succ n, hkept max hmax,
        List.length_set.trans hlength⟩
    · exact ⟨(hcount _ rfl).1, (hcount _ rfl).2, Nat.le_succ_of_le hmax, hkept n (Nat.le_refl n),
        List.length_set.trans hlength⟩

namespace State

section

variable {α : Type} {rate channels : Nat} {s : State α}

/-- A mark stands for a tenth of a second, and what is dropped for two thirds of the marks at most. -/
theorem skipOf_le {having empty max : Nat} (hmark : empty ≤ mark rate channels having)
    (hmax : max ≤ empty * 2 / 3 * 4) : 3 * skipOf (capacity rate channels) max ≤ 2 * having + 3 := by
  have hhaving : empty * (rate * channels) ≤ having * 10 := by
    have htenths : empty ≤ having * 10 / (rate * channels) := hmark.trans (Nat.min_le_left _ _)
    exact (Nat.mul_le_mul_right _ htenths).trans (Nat.div_mul_le_self _ _)
  have hthirds : max * 3 * (rate * channels) ≤ empty * 8 * (rate * channels) :=
    Nat.mul_le_mul_right _ (by omega)
  have hskip : capacity rate channels * max ≤ 80 * having := by
    calc capacity rate channels * max = max * 3 * (rate * channels) := by rw [capacity_eq]; ring
      _ ≤ empty * 8 * (rate * channels) := hthirds
      _ = 8 * (empty * (rate * channels)) := by ring
      _ ≤ 80 * having := by omega
  unfold skipOf
  omega

/-- There is a mark for each of the amounts, the buffer is not too full, and what was dropped was spared. -/
def Watched (rate channels : Nat) (s : State α) : Prop :=
  s.marks.length = 30 ∧ (∀ h ∈ s.havings, s.marks.getD (mark rate channels h) 0 ≠ 0) ∧
    s.rb.length ≤ capacity rate channels ∧ ∀ d ∈ s.drops, d.Spares

theorem Watched.appendPcm2 (h : Watched rate channels s) (pcm : List α) :
    Watched rate channels (s.appendPcm2 rate channels pcm) := by
  have hroom : (s.appendPcm2 rate channels pcm).rb.length ≤ capacity rate channels := by
    rw [rb_appendPcm2]
    exact length_pushSliceOverwrite _ _ _
  have hrest : (s.appendPcm2 rate channels pcm).marks = s.marks ∧
      (s.appendPcm2 rate channels pcm).havings = s.havings ∧
      (s.appendPcm2 rate channels pcm).drops = s.drops := by
    unfold State.appendPcm2
    dsimp only
    split <;> exact ⟨rfl, rfl, rfl⟩
  obtain ⟨hlength, hmarks, _, hdrops⟩ := h
  unfold Watched
  rw [hrest.1, hrest.2.1, hrest.2.2]
  exact ⟨hlength, hmarks, hroom, hdrops⟩

/-- The mark of what is there is counted, and no mark is counted down. -/
theorem Watched.count (h : Watched rate channels s) (having : Nat) :
    Watched rate channels (s.count rate channels having) := by
  obtain ⟨hlength, hmarks, hroom, hdrops⟩ := h
  unfold State.count
  have hindex : mark rate channels having < s.marks.length := by
    rw [hlength]
    exact Nat.lt_succ_of_le (Nat.min_le_right _ _)
  refine ⟨List.length_set.trans hlength, fun h hh => ?_, hroom, hdrops⟩
  dsimp only at hh ⊢
  by_cases hsame : mark rate channels having = mark rate channels h
  · rw [← hsame, List.getD_eq_getElem?_getD, List.getElem?_set_self hindex, Option.getD_some]
    exact Nat.succ_ne_zero _
  · rw [List.getD_eq_getElem?_getD, List.getElem?_set_ne hsame, ← List.getD_eq_getElem?_getD]
    rcases List.mem_cons.mp hh with rfl | hh
    · exact absurd rfl hsame
    · exact hmarks h hh

theorem Watched.skip (h : Watched rate channels s) {marks : List Nat} (hlength : marks.length = 30)
    {max : Nat} (hmax : max ≤ (evaluate s.marks 30).1 * 2 / 3 * 4) :
    Watched rate channels { ({ s with marks }).skip rate channels max with havings := [] } := by
  obtain ⟨_, hmarks, hroom, hdrops⟩ := h
  have hspares : ∀ having ∈ s.havings, 3 * skipOf (capacity rate channels) max ≤ 2 * having + 3 := by
    intro having hhaving
    refine skipOf_le (Nat.le_of_not_lt fun hlt => ?_) hmax
    exact hmarks having hhaving ((scanned_evaluate s.marks 30).zeros _ hlt)
  unfold State.skip
  dsimp only
  split
  · rename_i hfull
    refine ⟨hlength, fun _ hh => absurd hh List.not_mem_nil, ?_, fun d hd => ?_⟩
    · dsimp only
      rw [List.length_drop]
      omega
    · rcases List.mem_cons.mp hd with rfl | hd
      · exact ⟨hspares, by dsimp only; omega⟩
      · exact hdrops d hd
  · exact ⟨hlength, fun _ hh => absurd hh List.not_mem_nil, hroom, hdrops⟩

/-- The marks start again, and what is dropped is spared. -/
theorem Watched.shrink (h : Watched rate channels s) : Watched rate channels (s.shrink rate channels) := by
  have hlength := (scanned_evaluate s.marks 30).length.trans h.1
  have hskip := @Watched.skip α rate channels s h
  unfold State.shrink
  generalize evaluate s.marks 30 = found at hlength hskip ⊢
  obtain ⟨empty, max, marks⟩ := found
  dsimp only at hlength hskip ⊢
  have hset : (marks.set max 0).length = 30 := List.length_set.trans hlength
  split
  · exact ⟨hset, fun _ hh => absurd hh List.not_mem_nil, h.2.2⟩
  · refine hskip hset ?_
    split <;> omega

theorem Watched.tryShrink (h : Watched rate channels s) (having : Nat) (due : Bool) :
    Watched rate channels (s.tryShrink rate channels having due) := by
  unfold State.tryShrink
  dsimp only
  split
  · exact h.count having
  · exact (h.count having).shrink

theorem Watched.step (event : Event α) (h : Watched rate channels s) :
    Watched rate channels (s.step rate channels event) := by
  unfold State.step
  cases event with
  | appendPcm2 pcm =>
    dsimp only
    split
    · exact h.appendPcm2 pcm
    · exact h
  | tryShrink due =>
    dsimp only
    split
    · exact h.tryShrink _ due
    · exact h
  | callback n =>
    obtain ⟨hlength, hmarks, hroom, hdrops⟩ := h
    refine ⟨hlength, hmarks, ?_, hdrops⟩
    unfold State.callback
    dsimp only
    rw [List.length_drop]
    omega

/-- In every interleaving of appending, shrinking and playing: there are never more than three seconds, and what
is dropped to catch up is at most two thirds of what was there after any appending since the evaluation before,
and less than a third of what is there. -/
theorem audio_drops_spared (rate channels : Nat) (events : List (Event α)) :
    Throughout (State.step rate channels) (Spared rate channels) ({} : State α) events := by
  have hinit : Watched rate channels ({} : State α) :=
    ⟨rfl, fun _ hh => absurd hh List.not_mem_nil, Nat.zero_le _, fun _ hd => absurd hd List.not_mem_nil⟩
  exact History.throughout_imp (fun _ hs => ⟨hs.2.2.1, hs.2.2.2⟩)
    (History.throughout_of_step (fun _ event hs => hs.step event) hinit events)

end

end State

end RustDesk.AudioBuffer
