import RustDesk.Detiling

/-!
# The two ways to read a picture

Without sampling every byte of a plane is copied from an address that its row and column
determine. The tables lead to the same addresses: the sampled picture is made of bytes of the
picture that the plain copy would give, and its colours are pairs of that picture.
-/

namespace RustDesk.Goke.Frame

open StoreLoop (store nested store_nested)

variable {f : Frame} {y vu dst : Plane} {stack : Nat × Nat → Nat} {row col r c : Nat}

/-- Where the plain copy finds the byte of a row and a column. -/
def yAddress (f : Frame) (row col : Nat) : Nat := f.yoff + f.yTile row (col / 64) + col % 64

def vuAddress (f : Frame) (row col : Nat) : Nat := f.vuoff + f.vuTile row (col / 64) + col % 64

/-! ### The plain copy -/

theorem mem_memcpy {d place n : Nat} {src : Plane} {s : Nat × UInt8} :
    s ∈ memcpy d src place n ↔ ∃ j < n, (d + j, src (place + j)) = s := by
  simp only [memcpy, List.mem_map, List.mem_range]

theorem copy_apply (ha : f.Accepted) {m : Nat} (hm : m ≤ 2304) (src : Plane)
    (tile : Nat → Nat → Nat) (hrow : row < m) (hcol : col < f.w) :
    store dst (nested m (fun _ => (f.w + 63) / 64) fun row tx =>
        memcpy (u32 (row * f.w) + tx * 64) src (tile row tx) (f.tileBytes tx)) (row * f.w + col) =
      src (tile row (col / 64) + col % 64) := by
  obtain ⟨⟨-, -, hw, -⟩, -⟩ := ha
  have hnowrap : ∀ row' < m, u32 (row' * f.w) = row' * f.w :=
    fun row' hrow' => u32_of_lt (mul_lt (by omega) hw)
  have hj : col % 64 < f.tileBytes (col / 64) := by
    unfold tileBytes
    split_ifs <;> omega
  apply store_nested hrow (c := col / 64) (by omega)
  · refine mem_memcpy.mpr ⟨col % 64, hj, ?_⟩
    rw [hnowrap row hrow]
    congr 1
    omega
  · intro row' hrow' tx' htx' s hs hplace
    obtain ⟨j, hjn, rfl⟩ := mem_memcpy.mp hs
    rw [hnowrap row' hrow'] at hplace
    have hin : tx' * 64 + j < f.w := by
      unfold tileBytes at hjn
      split_ifs at hjn <;> omega
    have hj64 : j < 64 := by
      unfold tileBytes at hjn
      split_ifs at hjn <;> omega
    obtain ⟨rfl, rfl⟩ := row_col_inj hin hcol (by simpa only [Nat.add_assoc] using hplace)
    have htx : (tx' * 64 + j) / 64 = tx' := by omega
    have hk : (tx' * 64 + j) % 64 = j := by omega
    rw [htx, hk]

theorem plainY_apply (ha : f.Accepted) (hrow : row < f.h) (hcol : col < f.w) :
    f.plainY y dst (row * f.w + col) = y (f.yAddress row col) :=
  copy_apply ha ha.1.2.2.2.1 y (fun row tx => f.yoff + f.yTile row tx) hrow hcol

theorem plainVu_apply (ha : f.Accepted) (hrow : row < f.h / 2) (hcol : col < f.w) :
    f.plainVu vu dst (row * f.w + col) = vu (f.vuAddress row col) := by
  have hm : f.h / 2 ≤ 2304 := (Nat.div_le_self _ _).trans ha.1.2.2.2.1
  exact copy_apply ha hm vu (fun row tx => f.vuoff + f.vuTile row tx) hrow hcol

/-! ### The tables -/

theorem yLut_apply {ty : Nat} (hcol : col < f.ow) (hty : ty < 16) :
    f.yLut stack (ty, col) =
      let sx := u32 (col * f.w) / f.ow
      u32 (sx / 64 * 1024 + (ty ^^^ ((sx / 64 &&& 3) <<< 2)) * 64 + sx % 64) := by
  apply store_nested hcol hty (List.mem_singleton_self _)
  intro col' _ ty' _ s hs hplace
  rw [List.mem_singleton.mp hs] at hplace ⊢
  obtain ⟨rfl, rfl⟩ := Prod.mk.inj hplace
  rfl

theorem vuLut_apply {ty : Nat} (hcol : col < f.ow / 2) (hty : ty < 8) :
    f.vuLut stack (ty, col) =
      let sx := even (u32 (u32 (col * 2) * f.w) / f.ow)
      u32 (sx / 64 * 512 + (ty ^^^ ((sx / 64 &&& 1) <<< 2)) * 64 + sx % 64) := by
  apply store_nested hcol hty (List.mem_singleton_self _)
  intro col' _ ty' _ s hs hplace
  rw [List.mem_singleton.mp hs] at hplace ⊢
  obtain ⟨rfl, rfl⟩ := Prod.mk.inj hplace
  rfl

/-! ### The sampled planes -/

theorem yAddress_band (ha : f.Accepted) (hrow : row < f.h) (hcol : col < f.w) :
    f.yoff + u32 (row / 16 * f.tiles * 1024) +
        u32 (col / 64 * 1024 + (row % 16 ^^^ ((col / 64 &&& 3) <<< 2)) * 64 + col % 64) =
      f.yAddress row col := by
  obtain ⟨⟨-, -, hw, hh, -⟩, -⟩ := id ha
  have hswizzle : row % 16 ^^^ ((col / 64 &&& 3) <<< 2) < 16 := swizzle_lt (by omega)
  have hband : row / 16 * f.tiles ≤ 143 * 64 := Nat.mul_le_mul (by omega) (tiles_le ha)
  unfold yAddress yTile
  exact u32_tile (by omega)

theorem vuAddress_band (ha : f.Accepted) (hrow : row < f.h / 2) (hcol : col < f.w) :
    f.vuoff + u32 (row / 8 * f.tiles * 512) +
        u32 (col / 64 * 512 + (row % 8 ^^^ ((col / 64 &&& 1) <<< 2)) * 64 + col % 64) =
      f.vuAddress row col := by
  obtain ⟨⟨-, -, hw, hh, -⟩, -⟩ := id ha
  have hswizzle : row % 8 ^^^ ((col / 64 &&& 1) <<< 2) < 8 := swizzleVu_lt (by omega)
  have hband : row / 8 * f.tiles ≤ 143 * 64 := Nat.mul_le_mul (by omega) (tiles_le ha)
  unfold vuAddress vuTile
  exact u32_tile (by omega)

/-- The two bytes of a pair lie side by side in one row of one tile. -/
theorem vuAddress_succ (heven : col % 2 = 0) :
    f.vuAddress row (col + 1) = f.vuAddress row col + 1 := by
  have htile : (col + 1) / 64 = col / 64 := by omega
  have hk : (col + 1) % 64 = col % 64 + 1 := by omega
  unfold vuAddress
  rw [htile, hk]
  omega

theorem scaledY_apply (ha : f.Accepted) (lut : Nat × Nat → Nat) (hr : r < f.oh) (hc : c < f.ow) :
    f.scaledY lut y dst (r * f.ow + c) =
      let sy := r * f.h / f.oh
      y (f.yoff + u32 (sy / 16 * f.tiles * 1024) + lut (sy % 16, c)) := by
  obtain ⟨⟨-, -, hw, hh, -⟩, -⟩ := id ha
  obtain ⟨⟨how, -⟩, hoh, -⟩ := outputSize_le ha
  have hrow : ∀ r' < f.oh, u32 (r' * f.ow) = r' * f.ow := fun r' _ => u32_of_lt (mul_lt (by omega) (by omega))
  have hsample : ∀ r' < f.oh, u32 (r' * f.h) = r' * f.h := fun r' _ => u32_of_lt (mul_lt (by omega) (by omega))
  apply store_nested hr hc
  · rw [hrow r hr, hsample r hr]
    exact List.mem_singleton_self _
  · intro r' hr' c' hc' s hs hplace
    rw [List.mem_singleton.mp hs, hrow r' hr'] at hplace
    obtain ⟨rfl, rfl⟩ := row_col_inj hc' hc hplace
    rw [List.mem_singleton.mp hs, hsample r' hr']

theorem scaledVu_apply (ha : f.Accepted) (lut : Nat × Nat → Nat) (hr : r < f.oh / 2)
    (hc : c < f.ow / 2) {b : Nat} (hb : b < 2) :
    f.scaledVu lut vu dst (r * f.ow + (c * 2 + b)) =
      let sy := r * f.h / f.oh
      vu (f.vuoff + u32 (sy / 8 * f.tiles * 512) + lut (sy % 8, c) + b) := by
  obtain ⟨⟨-, -, hw, hh, -⟩, -⟩ := id ha
  obtain ⟨⟨how, -⟩, hoh, -⟩ := outputSize_le ha
  have hrow : ∀ r' < f.oh / 2, u32 (r' * f.ow) = r' * f.ow :=
    fun r' _ => u32_of_lt (mul_lt (by omega) (by omega))
  have hsample : ∀ r' < f.oh / 2, u32 (r' * f.h) = r' * f.h :=
    fun r' _ => u32_of_lt (mul_lt (by omega) (by omega))
  apply store_nested hr hc
  · rw [hrow r hr, hsample r hr]
    apply List.mem_pair.mpr
    obtain rfl | rfl : b = 0 ∨ b = 1 := by omega
    · exact .inl rfl
    · exact .inr rfl
  · intro r' hr' c' hc' s hs hplace
    rw [hrow r' hr', hsample r' hr'] at hs
    -- the parity of the place tells which byte of the pair it is
    rcases List.mem_pair.mp hs with rfl | rfl
    · obtain ⟨rfl, hcol⟩ := row_col_inj (by omega) (by omega) hplace
      obtain rfl : b = 0 := by omega
      obtain rfl : c' = c := by omega
      rfl
    · obtain ⟨rfl, hcol⟩ := row_col_inj (by omega) (by omega) hplace
      obtain rfl : b = 1 := by omega
      obtain rfl : c' = c := by omega
      rfl

/-! ### The picture -/

theorem y_sampled (ha : f.Accepted) (hr : r < f.oh) (hc : c < f.ow) :
    f.scaledY (f.yLut stack) y dst (r * f.ow + c) =
      y (f.yAddress (r * f.h / f.oh) (c * f.w / f.ow)) := by
  obtain ⟨⟨hw, hh, hw', hh', -⟩, -⟩ := id ha
  obtain ⟨⟨how, -⟩, hoh, -⟩ := outputSize_le ha
  have hcol : u32 (c * f.w) = c * f.w := u32_of_lt (mul_lt (by omega) hw')
  have hband := yAddress_band ha (sample_lt hr hh) (sample_lt hc hw)
  rw [scaledY_apply ha _ hr hc]
  dsimp only
  rw [yLut_apply hc (Nat.mod_lt _ (by decide)), hcol]
  dsimp only
  rw [hband]

def pairColumn (f : Frame) (c : Nat) : Nat := 2 * (2 * c * f.w / f.ow / 2)

theorem pairColumn_eq (ha : f.Accepted) (hc : c < f.ow / 2) :
    even (u32 (u32 (c * 2) * f.w) / f.ow) = f.pairColumn c := by
  obtain ⟨⟨-, -, hw, -⟩, -⟩ := id ha
  obtain ⟨⟨-, how⟩, -⟩ := outputSize_le ha
  have hlt : 2 * c * f.w < 2 ^ 32 := mul_lt (by omega) hw
  have hdouble : u32 (c * 2) = 2 * c := by
    rw [u32_of_lt (by omega), Nat.mul_comm]
  rw [hdouble, u32_of_lt hlt]
  exact even_eq ((Nat.div_le_self _ _).trans_lt hlt)

theorem pair_row (ha : f.Accepted) (hr : r < f.oh / 2) : r * f.h / f.oh < f.h / 2 := by
  obtain ⟨-, hoh, -⟩ := outputSize_le ha
  have hdouble : 2 * (r * f.h / f.oh) ≤ 2 * r * f.h / f.oh := by
    rw [Nat.mul_assoc]
    exact Nat.mul_div_le_mul_div_assoc 2 _ _
  have hroom : 2 * r * f.h / f.oh + 2 ≤ f.h := sample_add_le (by omega) hoh
  omega

theorem pair_inside (ha : f.Accepted) (hr : r < f.oh / 2) (hc : c < f.ow / 2) :
    r * f.h / f.oh < f.h / 2 ∧ f.pairColumn c + 1 < f.w := by
  obtain ⟨⟨how, -⟩, -⟩ := outputSize_le ha
  refine ⟨pair_row ha hr, ?_⟩
  have hroom : 2 * c * f.w / f.ow + 2 ≤ f.w := sample_add_le (by omega) how
  unfold pairColumn
  omega

theorem vu_sampled (ha : f.Accepted) (hr : r < f.oh / 2) (hc : c < f.ow / 2) {b : Nat} (hb : b < 2) :
    f.scaledVu (f.vuLut stack) vu dst (r * f.ow + (c * 2 + b)) =
      vu (f.vuAddress (r * f.h / f.oh) (f.pairColumn c + b)) := by
  obtain ⟨hrow, hcol⟩ := pair_inside ha hr hc
  have hband := vuAddress_band ha hrow (Nat.lt_of_succ_lt hcol)
  have hpair : f.vuAddress (r * f.h / f.oh) (f.pairColumn c + b) =
      f.vuAddress (r * f.h / f.oh) (f.pairColumn c) + b := by
    obtain rfl | rfl : b = 0 ∨ b = 1 := by omega
    · rfl
    · exact vuAddress_succ (by unfold pairColumn; omega)
  rw [scaledVu_apply ha _ hr hc hb]
  dsimp only
  rw [vuLut_apply hc (Nat.mod_lt _ (by decide)), pairColumn_eq ha hc]
  dsimp only
  rw [hband, hpair]

/-- What is sent of a frame that is sampled. Each byte of `y` is a byte of the picture that the
plain copy gives of the same frame, and each pair of `vu` is a pair of it; the addresses are
those of the plain copy. -/
theorem scaled_agrees (f : Frame) (y vu : Plane) (stack : Nat × Nat → Nat) (sc : Scratch)
    (ha : f.Accepted) (hs : f.Scaled) :
    let out := f.picture (f.detile y vu stack sc)
    (out.width = f.ow ∧ out.height = f.oh) ∧
      (∀ r < f.oh, ∀ c < f.ow,
        let row := r * f.h / f.oh
        let col := c * f.w / f.ow
        (row < f.h ∧ col < f.w) ∧ out.y (r * f.ow + c) = y (f.yAddress row col)) ∧
      (∀ r < f.oh / 2, ∀ c < f.ow / 2,
        let row := r * f.h / f.oh
        let col := 2 * (2 * c * f.w / f.ow / 2)
        (row < f.h / 2 ∧ col + 1 < f.w) ∧
          out.vu (r * f.ow + c * 2) = vu (f.vuAddress row col) ∧
          out.vu (r * f.ow + (c * 2 + 1)) = vu (f.vuAddress row (col + 1))) ∧
      (∀ dst, ∀ row < f.h, ∀ col < f.w,
        f.plainY y dst (row * f.w + col) = y (f.yAddress row col)) ∧
      ∀ dst, ∀ row < f.h / 2, ∀ col < f.w,
        f.plainVu vu dst (row * f.w + col) = vu (f.vuAddress row col) := by
  have hpic : f.picture (f.detile y vu stack sc) =
      ⟨f.ow, f.oh, f.scaledY (f.yLut stack) y sc.yscale, f.scaledVu (f.vuLut stack) vu sc.vuscale⟩ := by
    rw [picture, detile, if_pos hs, if_pos hs]
  obtain ⟨⟨hw, hh, -⟩, -⟩ := id ha
  dsimp only
  rw [hpic]
  refine ⟨⟨rfl, rfl⟩, fun r hr c hc => ?_, fun r hr c hc => ?_, fun dst row hrow col hcol => ?_,
    fun dst row hrow col hcol => ?_⟩
  · exact ⟨⟨sample_lt hr hh, sample_lt hc hw⟩, y_sampled ha hr hc⟩
  · exact ⟨pair_inside ha hr hc, vu_sampled ha hr hc Nat.zero_lt_two, vu_sampled ha hr hc Nat.one_lt_two⟩
  · exact plainY_apply ha hrow hcol
  · exact plainVu_apply ha hrow hcol

def wideFrame : Frame := fun i => if i = 71 then 2560 else if i = 72 then 1600 else if i = 6 then 2560 else 0

theorem scaled_agrees_wide :
    (wideFrame.ow, wideFrame.oh) = (1728, 1080) ∧
      (wideFrame.picture (wideFrame.detile (fun i => UInt8.ofNat (i / 64)) (fun i => UInt8.ofNat i)
        (fun _ => 0) ⟨fun _ => 0, fun _ => 0, fun _ => 0, fun _ => 0⟩)).y (1079 * 1728 + 1727) =
        (fun i => UInt8.ofNat (i / 64)) (wideFrame.yAddress 1598 2558) := by
  have hy := ((scaled_agrees wideFrame (fun i => UInt8.ofNat (i / 64)) (fun i => UInt8.ofNat i)
    (fun _ => 0) ⟨fun _ => 0, fun _ => 0, fun _ => 0, fun _ => 0⟩ (by decide) (by decide)).2.1
    1079 (by decide) 1727 (by decide)).2
  exact ⟨by decide, hy⟩

end RustDesk.Goke.Frame
