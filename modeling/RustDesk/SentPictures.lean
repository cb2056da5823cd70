import RustDesk.DetilingBounds
import RustDesk.DecoderBridge

/-!
# What is sent of a picture

`drain_loop` sends `ow * oh` bytes of luma and `ow * oh / 2` bytes of colour from buffers that it
never clears. The luma rows and the colour rows of a sampled picture fill what is sent. A picture
that is copied as it is has `h / 2` rows of colour, and these are less than `ow * oh / 2` bytes when
its height is odd: what is sent behind them was there before.
-/

namespace RustDesk.Goke.Frame

open StoreLoop (store store_congr store_of_forall_ne)

variable {f : Frame} {y vu : Plane} {stack : Nat × Nat → Nat} {sc : Scratch}

/-- What goes to the peer after the words of the header. For a frame that is not supported the bridge is closed
before `nv21_from_frame` is called. -/
def sent (f : Frame) (y vu : Plane) (stack : Nat × Nat → Nat) (sc : Scratch) : Option Nv21 :=
  if Daemon.supported f then some (f.picture (f.detile y vu stack sc)).nv21 else none

/-- Nothing that was in the buffers before is sent. -/
def SentAlike (f : Frame) : Prop :=
  ∀ y vu stack stack' sc sc', f.sent y vu stack sc = f.sent y vu stack' sc'

/-- Every byte that is sent is written from the frame. -/
def SentWritten (f : Frame) : Prop :=
  Daemon.supported f = true → ∀ stack, (∀ i < f.ow * f.oh, ∃ m ∈ f.yMoves stack, m.1 = i) ∧
    ∀ i < f.ow * f.oh / 2, ∃ m ∈ f.vuMoves stack, m.1 = i

theorem scaled_iff (ha : f.Accepted) : f.Scaled ↔ 1920 < f.w ∨ 1080 < f.h := by
  obtain ⟨⟨-, how⟩, -, hoh⟩ := outputSize_le ha
  constructor
  · intro hs
    by_contra hsmall
    have hsize : f.outputSize = (f.w, f.h) := if_neg hsmall
    unfold Scaled ow oh at hs
    rw [hsize] at hs
    exact hs.elim (· rfl) (· rfl)
  · intro hbig
    unfold Scaled
    omega

/-- The sizes of a sampled picture are even. -/
theorem even_size (ha : f.Accepted) (hs : f.Scaled) : f.ow % 2 = 0 ∧ f.oh % 2 = 0 := by
  obtain ⟨⟨-, -, hw, hh, -⟩, -⟩ := id ha
  have hover : f.h * 1920 / f.w < 2 ^ 32 := (Nat.div_le_self _ _).trans_lt (by omega)
  have hover' : f.w * 1080 / f.h < 2 ^ 32 := (Nat.div_le_self _ _).trans_lt (by omega)
  have hbig := (scaled_iff ha).mp hs
  unfold ow oh outputSize
  rw [if_pos hbig]
  split_ifs
  · rw [even_eq hover]
    omega
  · rw [even_eq hover']
    omega

theorem u32_size (ha : f.Accepted) : u32 (f.ow * f.oh) = f.ow * f.oh := by
  obtain ⟨⟨-, how⟩, -, hoh⟩ := outputSize_le ha
  exact u32_of_lt (mul_lt (by omega) (by omega))

theorem sent_eq (ha : f.Accepted) (hsupported : Daemon.supported f = true) :
    f.sent y vu stack sc = some
      { width := f.ow
        height := f.oh
        y := bytesOf (store (f.yBuffer sc) ((f.yMoves stack).map (load y f.yoff))) (f.ow * f.oh)
        vu := bytesOf (store (f.vuBuffer sc) ((f.vuMoves stack).map (load vu f.vuoff)))
          (f.ow * f.oh / 2) } := by
  rw [sent, if_pos hsupported, picture_detile]
  simp only [Picture.nv21, u32_size ha]

/-! ### What is written -/

theorem yMoves_functional (ha : f.Accepted) {m m' : Nat × Nat} (hm : m ∈ f.yMoves stack)
    (hm' : m' ∈ f.yMoves stack) (h : m.1 = m'.1) : m = m' := by
  obtain ⟨row, hrow, col, hcol, rfl⟩ := (mem_yMoves ha).mp hm
  obtain ⟨row', hrow', col', hcol', rfl⟩ := (mem_yMoves ha).mp hm'
  obtain ⟨rfl, rfl⟩ := row_col_inj hcol hcol' h
  rfl

theorem vuMoves_functional (ha : f.Accepted) {m m' : Nat × Nat} (hm : m ∈ f.vuMoves stack)
    (hm' : m' ∈ f.vuMoves stack) (h : m.1 = m'.1) : m = m' := by
  obtain ⟨⟨-, -, hw, hh, -⟩, -⟩ := id ha
  unfold vuMoves at hm hm'
  split_ifs at hm hm'
  · obtain ⟨row, hrow, col, hcol, b, hb, rfl⟩ := (mem_scaledVuMoves ha).mp hm
    obtain ⟨row', hrow', col', hcol', b', hb', rfl⟩ := (mem_scaledVuMoves ha).mp hm'
    obtain ⟨rfl, hpair⟩ := row_col_inj (by omega) (by omega) h
    obtain rfl : col = col' := by omega
    obtain rfl : b = b' := by omega
    rfl
  · obtain ⟨row, hrow, col, hcol, rfl⟩ := (mem_plainMoves ha (by omega)).mp hm
    obtain ⟨row', hrow', col', hcol', rfl⟩ := (mem_plainMoves ha (by omega)).mp hm'
    obtain ⟨rfl, rfl⟩ := row_col_inj hcol hcol' h
    rfl

theorem mem_yMoves_stack (ha : f.Accepted) (stack stack' : Nat × Nat → Nat) (m : Nat × Nat) :
    m ∈ f.yMoves stack ↔ m ∈ f.yMoves stack' := (mem_yMoves ha).trans (mem_yMoves ha).symm

theorem mem_vuMoves_stack (ha : f.Accepted) (stack stack' : Nat × Nat → Nat) (m : Nat × Nat) :
    m ∈ f.vuMoves stack ↔ m ∈ f.vuMoves stack' := by
  unfold vuMoves
  split_ifs
  · exact (mem_scaledVuMoves ha).trans (mem_scaledVuMoves ha).symm
  · exact Iff.rfl

/-- `n` bytes that are all written are the same, whatever the buffer and the stack held before. -/
theorem bytesOf_store {ms ms' : List (Nat × Nat)} {n : Nat} (src buf buf' : Plane) (offset : Nat)
    (hmem : ∀ m, m ∈ ms ↔ m ∈ ms') (hone : ∀ m ∈ ms, ∀ m' ∈ ms, m.1 = m'.1 → m = m')
    (hall : ∀ i < n, ∃ m ∈ ms, m.1 = i) :
    bytesOf (store buf (ms.map (load src offset))) n = bytesOf (store buf' (ms'.map (load src offset))) n := by
  apply List.map_congr_left
  intro i hi
  apply store_congr
  · intro w
    simp only [List.mem_map, hmem]
  · intro w hw x hx h
    obtain ⟨m, hm, rfl⟩ := List.mem_map.mp hw
    obtain ⟨m', hm', rfl⟩ := List.mem_map.mp hx
    rw [hone m hm m' hm' h]
  · obtain ⟨m, hm, hmi⟩ := hall i (List.mem_range.mp hi)
    exact ⟨load src offset m, List.mem_map_of_mem hm, hmi⟩

theorem sentAlike_of_written (ha : f.Accepted) (h : f.SentWritten) : f.SentAlike := by
  intro y vu stack stack' sc sc'
  by_cases hsupported : Daemon.supported f = true
  case neg =>
    rw [sent, sent, if_neg hsupported, if_neg hsupported]
  rw [sent_eq ha hsupported, sent_eq ha hsupported]
  have hy := bytesOf_store y (f.yBuffer sc) (f.yBuffer sc') f.yoff (mem_yMoves_stack ha stack stack')
    (fun m hm m' hm' => yMoves_functional ha hm hm') (h hsupported stack).1
  have hvu := bytesOf_store vu (f.vuBuffer sc) (f.vuBuffer sc') f.vuoff (mem_vuMoves_stack ha stack stack')
    (fun m hm m' hm' => vuMoves_functional ha hm hm') (h hsupported stack).2
  rw [hy, hvu]

theorem exists_row_col {i n m : Nat} (h : i < n * m) : i / n < m ∧ i % n < n ∧ i / n * n + i % n = i := by
  have hn : 0 < n := Nat.pos_of_ne_zero (by rintro rfl; simp at h)
  exact ⟨Nat.div_lt_of_lt_mul h, Nat.mod_lt _ hn, Nat.div_add_mod' i n⟩

theorem written_y (ha : f.Accepted) {i : Nat} (hi : i < f.ow * f.oh) :
    ∃ m ∈ f.yMoves stack, m.1 = i := by
  obtain ⟨hrow, hcol, hplace⟩ := exists_row_col hi
  exact ⟨_, (mem_yMoves ha).mpr ⟨_, hrow, _, hcol, rfl⟩, hplace⟩

theorem written_scaledVu (ha : f.Accepted) (hs : f.Scaled) {i : Nat} (hi : i < f.ow * f.oh / 2) :
    ∃ m ∈ f.vuMoves stack, m.1 = i := by
  obtain ⟨how, hoh⟩ := even_size ha hs
  have hhalf : f.ow * f.oh / 2 = f.ow * (f.oh / 2) := Nat.mul_div_assoc _ (Nat.dvd_of_mod_eq_zero hoh)
  obtain ⟨hrow, hcol, hplace⟩ := exists_row_col (hhalf ▸ hi)
  rw [vuMoves, if_pos hs]
  refine ⟨_, (mem_scaledVuMoves ha).mpr ⟨_, hrow, i % f.ow / 2, by omega, i % f.ow % 2, by omega, rfl⟩, ?_⟩
  dsimp only
  omega

theorem mem_plainVu (ha : f.Accepted) (hs : ¬f.Scaled) {i : Nat} :
    (∃ m ∈ f.vuMoves stack, m.1 = i) ↔ i < f.w * (f.h / 2) := by
  obtain ⟨⟨-, -, -, hh, -⟩, -⟩ := id ha
  rw [vuMoves, if_neg hs]
  constructor
  · rintro ⟨m, hm, rfl⟩
    obtain ⟨row, hrow, col, hcol, rfl⟩ := (mem_plainMoves ha (by omega)).mp hm
    rw [Nat.mul_comm f.w]
    exact place_lt hrow hcol
  · intro hi
    obtain ⟨hrow, hcol, hplace⟩ := exists_row_col hi
    exact ⟨_, (mem_plainMoves ha (by omega)).mpr ⟨_, hrow, _, hcol, rfl⟩, hplace⟩

/-- The colours fill half of an even number of rows, and less than half of an odd one. -/
theorem half_area {w : Nat} (h : Nat) (hw : 2 ≤ w) :
    w * (h / 2) ≤ w * h / 2 ∧ (w * (h / 2) = w * h / 2 ↔ h % 2 = 0) := by
  have hsplit : w * h = 2 * (w * (h / 2)) + w * (h % 2) := by
    conv_lhs => rw [← Nat.div_add_mod h 2, Nat.mul_add, Nat.mul_left_comm]
  obtain hmod | hmod : h % 2 = 0 ∨ h % 2 = 1 := by omega
  · rw [hmod] at hsplit
    omega
  · rw [hmod] at hsplit
    omega

/-! ### What is sent -/

theorem sentWritten_iff (ha : f.Accepted) :
    f.SentWritten ↔ Daemon.supported f = false ∨ f.Scaled ∨ f.h % 2 = 0 := by
  by_cases hsupported : Daemon.supported f = true
  case neg =>
    exact iff_of_true (fun h => absurd h hsupported) (.inl (Bool.eq_false_iff.mpr hsupported))
  rw [or_iff_right (by rw [hsupported]; decide)]
  by_cases hs : f.Scaled
  · have hall : f.SentWritten := fun _ stack =>
      ⟨fun i hi => written_y ha hi, fun i hi => written_scaledVu ha hs hi⟩
    exact ⟨fun _ => .inl hs, fun _ => hall⟩
  · obtain ⟨how, hoh⟩ := not_scaled hs
    obtain ⟨hle, heq⟩ := half_area f.h (how ▸ ha.2.1)
    rw [or_iff_right hs, ← heq]
    constructor
    · intro h
      by_contra hne
      have hlast := (h hsupported fun _ => 0).2 (f.w * (f.h / 2)) (by rw [how, hoh]; omega)
      exact absurd ((mem_plainVu ha hs).mp hlast) (lt_irrefl _)
    · intro hfull _ stack
      refine ⟨fun i hi => written_y ha hi, fun i hi => ?_⟩
      rw [how, hoh, ← hfull] at hi
      exact (mem_plainVu ha hs).mpr hi

/-- Behind the colour rows of a picture with an odd height the old bytes of the buffer are sent. -/
theorem sent_rest (ha : f.Accepted) (hsupported : Daemon.supported f = true) (hs : ¬f.Scaled)
    (hodd : ¬f.h % 2 = 0) (b : UInt8) :
    (f.sent y vu stack { sc with vulin := fun _ => b }).bind (·.vu[f.w * (f.h / 2)]?) = some b := by
  obtain ⟨how, hoh⟩ := not_scaled hs
  obtain ⟨hle, heq⟩ := half_area f.h (how ▸ ha.2.1)
  have hlt : f.w * (f.h / 2) < f.ow * f.oh / 2 := by
    rw [how, hoh]
    exact lt_of_le_of_ne hle fun hfull => hodd (heq.mp hfull)
  have hnone : ∀ w ∈ (f.vuMoves stack).map (load vu f.vuoff), w.1 ≠ f.w * (f.h / 2) := by
    rintro w hw hplace
    obtain ⟨m, hm, rfl⟩ := List.mem_map.mp hw
    exact absurd ((mem_plainVu ha hs).mp ⟨m, hm, hplace⟩) (lt_irrefl _)
  rw [sent_eq ha hsupported, Option.bind_some]
  dsimp only [bytesOf]
  rw [List.getElem?_map, List.getElem?_range hlt, Option.map_some, store_of_forall_ne hnone, vuBuffer,
    if_neg hs]

theorem sentAlike_iff (ha : f.Accepted) :
    f.SentAlike ↔ Daemon.supported f = false ∨ f.Scaled ∨ f.h % 2 = 0 := by
  constructor
  · intro h
    by_contra hno
    obtain ⟨hsupported, hno⟩ := not_or.mp hno
    obtain ⟨hs, hodd⟩ := not_or.mp hno
    rw [Bool.not_eq_false] at hsupported
    let blank : Plane := fun _ => 0
    let sc : Scratch := ⟨blank, blank, blank, blank⟩
    have hsame := congrArg (·.bind (·.vu[f.w * (f.h / 2)]?)) (h blank blank (fun _ => 0) (fun _ => 0)
      { sc with vulin := fun _ => 0 } { sc with vulin := fun _ => 1 })
    rw [sent_rest ha hsupported hs hodd, sent_rest ha hsupported hs hodd] at hsame
    exact absurd hsame (by decide)
  · intro h
    exact sentAlike_of_written ha ((sentWritten_iff ha).mpr h)

/-- What is sent of a frame is the same for all buffers, and is written from the frame, exactly when the frame is
not supported, so that nothing is sent of it, or the picture is sampled, or its height is even. -/
theorem sent_pictures_fresh (f : Frame) (ha : f.Accepted) :
    (f.SentAlike ↔ Daemon.supported f = false ∨ 1920 < f.w ∨ 1080 < f.h ∨ f.h % 2 = 0) ∧
      (f.SentWritten ↔ Daemon.supported f = false ∨ 1920 < f.w ∨ 1080 < f.h ∨ f.h % 2 = 0) := by
  rw [← or_assoc (a := 1920 < f.w), ← scaled_iff ha]
  exact ⟨sentAlike_iff ha, sentWritten_iff ha⟩

theorem sent_pictures_fresh_wide : wideFrame.SentAlike ∧ wideFrame.SentWritten := by
  obtain ⟨halike, hwritten⟩ := sent_pictures_fresh wideFrame (by decide)
  exact ⟨halike.mpr (by decide), hwritten.mpr (by decide)⟩

/-- A picture of 640 columns and 359 rows. -/
def oddFrame : Frame := fun i => if i = 71 then 640 else if i = 72 then 359 else if i = 6 then 640 else 0

theorem odd_height_not_fresh :
    oddFrame.Accepted ∧ Daemon.supported oddFrame = true ∧ ¬oddFrame.SentAlike ∧
      ¬oddFrame.SentWritten := by
  have ha : oddFrame.Accepted := by decide
  have hno : ¬(Daemon.supported oddFrame = false ∨ oddFrame.Scaled ∨ oddFrame.h % 2 = 0) := by decide
  exact ⟨ha, by decide, fun h => hno ((sentAlike_iff ha).mp h), fun h => hno ((sentWritten_iff ha).mp h)⟩

end RustDesk.Goke.Frame
