import RustDesk.DetilingAgreement
import Mathlib.Data.Set.Function
import Mathlib.Tactic.Ring

/-!
# The addresses of a picture

A plane is read through indices into its tiles, and written through indices into a scratch
buffer that was allocated for the largest picture. The moves of a frame are all these pairs of
indices, in the order of the loops; what `nv21_from_frame` leaves behind is what the moves
store. For every frame that passes the guards they stay inside the tiles and the buffers.
-/

namespace RustDesk.Goke.Frame

open StoreLoop (store nested mem_nested map_nested)

variable {f : Frame} {stack : Nat × Nat → Nat} {row col : Nat}

/-! ### The moves -/

/-- What a move stores: the byte behind the beginning of the pixels. -/
def load (src : Plane) (offset : Nat) (m : Nat × Nat) : Nat × UInt8 := (m.1, src (offset + m.2))

def scaledYMoves (f : Frame) (lut : Nat × Nat → Nat) : List (Nat × Nat) :=
  nested f.oh (fun _ => f.ow) fun row col =>
    let sy := u32 (row * f.h) / f.oh
    [(u32 (row * f.ow) + col, u32 (sy / 16 * f.tiles * 1024) + lut (sy % 16, col))]

def scaledVuMoves (f : Frame) (lut : Nat × Nat → Nat) : List (Nat × Nat) :=
  nested (f.oh / 2) (fun _ => f.ow / 2) fun row col =>
    let sy := u32 (row * f.h) / f.oh
    let p := u32 (sy / 8 * f.tiles * 512) + lut (sy % 8, col)
    [(u32 (row * f.ow) + col * 2, p), (u32 (row * f.ow) + (col * 2 + 1), p + 1)]

/-- The copies of whole tile rows, byte by byte. -/
def plainMoves (f : Frame) (rows : Nat) (tile : Nat → Nat → Nat) : List (Nat × Nat) :=
  nested rows (fun _ => (f.w + 63) / 64) fun row tx =>
    (List.range (f.tileBytes tx)).map fun j => (u32 (row * f.w) + tx * 64 + j, tile row tx + j)

def yMoves (f : Frame) (stack : Nat × Nat → Nat) : List (Nat × Nat) :=
  if f.Scaled then f.scaledYMoves (f.yLut stack) else f.plainMoves f.h f.yTile

def vuMoves (f : Frame) (stack : Nat × Nat → Nat) : List (Nat × Nat) :=
  if f.Scaled then f.scaledVuMoves (f.vuLut stack) else f.plainMoves (f.h / 2) f.vuTile

/-- The buffers that a frame is written to, and their sizes in `drain_loop`. -/
def yBuffer (f : Frame) (sc : Scratch) : Plane := if f.Scaled then sc.yscale else sc.ylin

def vuBuffer (f : Frame) (sc : Scratch) : Plane := if f.Scaled then sc.vuscale else sc.vulin

def yRoom (f : Frame) : Nat := if f.Scaled then 1920 * 1080 else 4096 * 2304

def vuRoom (f : Frame) : Nat := if f.Scaled then 1920 * 1080 / 2 else 4096 * 2304 / 2

theorem scaledY_eq (f : Frame) (lut : Nat × Nat → Nat) (y dst : Plane) :
    f.scaledY lut y dst = store dst ((f.scaledYMoves lut).map (load y f.yoff)) := by
  simp only [scaledY, scaledYMoves, map_nested, load, List.map_cons, List.map_nil, Nat.add_assoc]

theorem scaledVu_eq (f : Frame) (lut : Nat × Nat → Nat) (vu dst : Plane) :
    f.scaledVu lut vu dst = store dst ((f.scaledVuMoves lut).map (load vu f.vuoff)) := by
  simp only [scaledVu, scaledVuMoves, map_nested, load, List.map_cons, List.map_nil, Nat.add_assoc]

theorem plain_eq (f : Frame) (rows offset : Nat) (tile : Nat → Nat → Nat) (src dst : Plane) :
    store dst (nested rows (fun _ => (f.w + 63) / 64) fun row tx =>
        memcpy (u32 (row * f.w) + tx * 64) src (offset + tile row tx) (f.tileBytes tx)) =
      store dst ((f.plainMoves rows tile).map (load src offset)) := by
  simp only [plainMoves, map_nested, memcpy, load, List.map_map, Function.comp_def, Nat.add_assoc]

/-- The picture of a frame is what its moves store. -/
theorem picture_detile (f : Frame) (y vu : Plane) (stack : Nat × Nat → Nat) (sc : Scratch) :
    f.picture (f.detile y vu stack sc) =
      { width := f.ow
        height := f.oh
        y := store (f.yBuffer sc) ((f.yMoves stack).map (load y f.yoff))
        vu := store (f.vuBuffer sc) ((f.vuMoves stack).map (load vu f.vuoff)) } := by
  unfold picture detile yBuffer vuBuffer yMoves vuMoves
  by_cases hs : f.Scaled
  · simp only [hs, if_true, scaledY_eq, scaledVu_eq]
  · simp only [hs, if_false, plainY, plainVu, plain_eq]

/-! ### Indices of the tiles -/

theorem swizzled_lt {b B tx tiles x k : Nat} (size : Nat) (hb : b < B) (htx : tx < tiles)
    (hk : x * 64 + k < size) : (b * tiles + tx) * size + x * 64 + k < tiles * size * B := by
  have hone : (b * tiles + tx + 1) * size ≤ tiles * size * B := by
    calc (b * tiles + tx + 1) * size ≤ (b * tiles + tiles) * size :=
          Nat.mul_le_mul_right size (by omega)
      _ = (b + 1) * (tiles * size) := by ring
      _ ≤ B * (tiles * size) := Nat.mul_le_mul_right _ hb
      _ = tiles * size * B := Nat.mul_comm _ _
  rw [Nat.add_mul, Nat.one_mul] at hone
  omega

theorem tileColumn_lt (ha : f.Accepted) (hcol : col < f.w) : col / 64 < f.tiles := by
  obtain ⟨⟨-, -, -, -, hstride, haligned, -⟩, -⟩ := ha
  unfold tiles
  omega

theorem yTile_eq (ha : f.Accepted) (hrow : row < f.h) (hcol : col < f.w) :
    f.yTile row (col / 64) = (row / 16 * f.tiles + col / 64) * 1024 +
      ((row % 16) ^^^ ((col / 64 &&& 3) <<< 2)) * 64 := by
  obtain ⟨⟨-, -, hw, hh, -⟩, -⟩ := id ha
  have hswizzle : row % 16 ^^^ ((col / 64 &&& 3) <<< 2) < 16 := swizzle_lt (by omega)
  have hband : row / 16 * f.tiles ≤ 143 * 64 := Nat.mul_le_mul (by omega) (tiles_le ha)
  exact u32_of_lt (by omega)

theorem vuTile_eq (ha : f.Accepted) (hrow : row < f.h / 2) (hcol : col < f.w) :
    f.vuTile row (col / 64) = (row / 8 * f.tiles + col / 64) * 512 +
      ((row % 8) ^^^ ((col / 64 &&& 1) <<< 2)) * 64 := by
  obtain ⟨⟨-, -, hw, hh, -⟩, -⟩ := id ha
  have hswizzle : row % 8 ^^^ ((col / 64 &&& 1) <<< 2) < 8 := swizzleVu_lt (by omega)
  have hband : row / 8 * f.tiles ≤ 143 * 64 := Nat.mul_le_mul (by omega) (tiles_le ha)
  exact u32_of_lt (by omega)

/-- The index of a luma sample of the picture that is not scaled. -/
def yIndex (f : Frame) (row col : Nat) : Nat := f.yTile row (col / 64) + col % 64

def vuIndex (f : Frame) (row col : Nat) : Nat := f.vuTile row (col / 64) + col % 64

theorem yIndex_lt (ha : f.Accepted) (hrow : row < f.h) (hcol : col < f.w) :
    f.yIndex row col < f.tiles * 1024 * ((f.h + 15) / 16) := by
  have hswizzle : row % 16 ^^^ ((col / 64 &&& 3) <<< 2) < 16 := swizzle_lt (by omega)
  rw [yIndex, yTile_eq ha hrow hcol]
  exact swizzled_lt 1024 (by omega) (tileColumn_lt ha hcol) (by omega)

theorem vuIndex_lt (ha : f.Accepted) (hrow : row < f.h / 2) (hcol : col < f.w) :
    f.vuIndex row col < f.tiles * 512 * (((f.h + 1) / 2 + 7) / 8) := by
  have hswizzle : row % 8 ^^^ ((col / 64 &&& 1) <<< 2) < 8 := swizzleVu_lt (by omega)
  rw [vuIndex, vuTile_eq ha hrow hcol]
  exact swizzled_lt 512 (by omega) (tileColumn_lt ha hcol) (by omega)

/-- Band, tile, row of the tile and column of the tile are read off an index. -/
theorem swizzled_inj {bands rows tiles b b' tx tx' x x' k k' : Nat} (htx : tx < tiles) (htx' : tx' < tiles)
    (hx : x < rows) (hx' : x' < rows) (hk : k < 64) (hk' : k' < 64) (hrows : bands = rows * 64)
    (h : (b * tiles + tx) * bands + x * 64 + k = (b' * tiles + tx') * bands + x' * 64 + k') :
    (b = b' ∧ tx = tx') ∧ x = x' ∧ k = k' := by
  subst hrows
  have hjoin : ∀ t y : Nat, t * (rows * 64) + y * 64 = (t * rows + y) * 64 := by
    intro t y
    ring
  rw [hjoin, hjoin] at h
  obtain ⟨hrow, rfl⟩ := row_col_inj hk hk' h
  obtain ⟨htile, rfl⟩ := row_col_inj hx hx' hrow
  exact ⟨row_col_inj htx htx' htile, rfl, rfl⟩

theorem yIndex_injOn (ha : f.Accepted) :
    Set.InjOn (fun p : Nat × Nat => f.yIndex p.1 p.2) {p | p.1 < f.h ∧ p.2 < f.w} := by
  rintro ⟨row, col⟩ ⟨hrow, hcol⟩ ⟨row', col'⟩ ⟨hrow', hcol'⟩ h
  dsimp only at hrow hcol hrow' hcol' h
  rw [yIndex, yIndex, yTile_eq ha hrow hcol, yTile_eq ha hrow' hcol'] at h
  obtain ⟨⟨hband, htile⟩, hswizzle, hk⟩ := swizzled_inj (tileColumn_lt ha hcol)
    (tileColumn_lt ha hcol') (swizzle_lt (by omega)) (swizzle_lt (by omega)) (by omega) (by omega)
    rfl h
  rw [htile] at hswizzle
  have hlane := Nat.xor_left_inj.mp hswizzle
  exact Prod.ext (by dsimp only; omega) (by dsimp only; omega)

theorem vuIndex_injOn (ha : f.Accepted) :
    Set.InjOn (fun p : Nat × Nat => f.vuIndex p.1 p.2) {p | p.1 < f.h / 2 ∧ p.2 < f.w} := by
  rintro ⟨row, col⟩ ⟨hrow, hcol⟩ ⟨row', col'⟩ ⟨hrow', hcol'⟩ h
  dsimp only at hrow hcol hrow' hcol' h
  rw [vuIndex, vuIndex, vuTile_eq ha hrow hcol, vuTile_eq ha hrow' hcol'] at h
  obtain ⟨⟨hband, htile⟩, hswizzle, hk⟩ := swizzled_inj (tileColumn_lt ha hcol)
    (tileColumn_lt ha hcol') (swizzleVu_lt (by omega)) (swizzleVu_lt (by omega)) (by omega) (by omega)
    rfl h
  rw [htile] at hswizzle
  have hlane := Nat.xor_left_inj.mp hswizzle
  exact Prod.ext (by dsimp only; omega) (by dsimp only; omega)

/-! ### The moves stay inside -/

theorem place_lt {r c n m : Nat} (hr : r < m) (hc : c < n) : r * n + c < m * n := by
  calc r * n + c < (r + 1) * n := by rw [Nat.add_mul, Nat.one_mul]; omega
    _ ≤ m * n := Nat.mul_le_mul_right n hr

/-- The tables lead to the indices of the picture that is not scaled. -/
theorem scaledY_index (ha : f.Accepted) (hrow : row < f.oh) (hcol : col < f.ow) :
    u32 (u32 (row * f.h) / f.oh / 16 * f.tiles * 1024) +
        f.yLut stack (u32 (row * f.h) / f.oh % 16, col) =
      f.yIndex (row * f.h / f.oh) (col * f.w / f.ow) := by
  obtain ⟨⟨hw, hh, hw', hh', -⟩, -⟩ := id ha
  obtain ⟨⟨how, -⟩, hoh, -⟩ := outputSize_le ha
  have hsy : u32 (row * f.h) = row * f.h := u32_of_lt (mul_lt (by omega) (by omega))
  have hsx : u32 (col * f.w) = col * f.w := u32_of_lt (mul_lt (by omega) hw')
  have hband := yAddress_band ha (sample_lt hrow hh) (sample_lt hcol hw)
  rw [hsy, yLut_apply hcol (Nat.mod_lt _ (by decide)), hsx]
  unfold yAddress at hband
  unfold yIndex
  dsimp only
  omega

theorem scaledVu_index (ha : f.Accepted) (hrow : row < f.oh / 2) (hcol : col < f.ow / 2) :
    u32 (u32 (row * f.h) / f.oh / 8 * f.tiles * 512) +
        f.vuLut stack (u32 (row * f.h) / f.oh % 8, col) =
      f.vuIndex (row * f.h / f.oh) (f.pairColumn col) := by
  obtain ⟨⟨-, -, -, hh', -⟩, -⟩ := id ha
  obtain ⟨-, hoh, -⟩ := outputSize_le ha
  obtain ⟨hsample, hpair⟩ := pair_inside ha hrow hcol
  have hsy : u32 (row * f.h) = row * f.h := u32_of_lt (mul_lt (by omega) (by omega))
  have hband := vuAddress_band ha hsample (Nat.lt_of_succ_lt hpair)
  rw [hsy, vuLut_apply hcol (Nat.mod_lt _ (by decide)), pairColumn_eq ha hcol]
  unfold vuAddress at hband
  unfold vuIndex
  dsimp only
  omega

theorem mem_plainMoves (ha : f.Accepted) {rows : Nat} (hrows : rows ≤ 2304) {tile : Nat → Nat → Nat}
    {m : Nat × Nat} :
    m ∈ f.plainMoves rows tile ↔
      ∃ row < rows, ∃ col < f.w, (row * f.w + col, tile row (col / 64) + col % 64) = m := by
  obtain ⟨⟨-, -, hw, -⟩, -⟩ := id ha
  have hplace : ∀ row < rows, u32 (row * f.w) = row * f.w :=
    fun row hrow => u32_of_lt (mul_lt (by omega) hw)
  simp only [plainMoves, mem_nested, List.mem_map, List.mem_range]
  constructor
  · rintro ⟨row, hrow, tx, htx, j, hj, rfl⟩
    have hin : tx * 64 + j < f.w ∧ j < 64 := by
      unfold tileBytes at hj
      split_ifs at hj <;> omega
    refine ⟨row, hrow, tx * 64 + j, hin.1, ?_⟩
    have htile : (tx * 64 + j) / 64 = tx := by omega
    have hk : (tx * 64 + j) % 64 = j := by omega
    rw [htile, hk, hplace row hrow, Nat.add_assoc]
  · rintro ⟨row, hrow, col, hcol, rfl⟩
    refine ⟨row, hrow, col / 64, by omega, col % 64, ?_, ?_⟩
    · unfold tileBytes
      split_ifs <;> omega
    · rw [hplace row hrow, Nat.add_assoc]
      congr 2
      omega

theorem not_scaled (hs : ¬f.Scaled) : f.ow = f.w ∧ f.oh = f.h := by
  unfold Scaled at hs
  exact not_or.mp hs |>.imp not_not.mp not_not.mp

/-- In both branches a sample of each row and column is moved. -/
theorem mem_yMoves (ha : f.Accepted) {m : Nat × Nat} :
    m ∈ f.yMoves stack ↔ ∃ row < f.oh, ∃ col < f.ow,
      (row * f.ow + col, f.yIndex (row * f.h / f.oh) (col * f.w / f.ow)) = m := by
  obtain ⟨⟨hw, hh, -, hh', -⟩, -⟩ := id ha
  unfold yMoves
  split_ifs with hs
  · obtain ⟨⟨-, how⟩, -, hoh⟩ := outputSize_le ha
    have hplace : ∀ row < f.oh, u32 (row * f.ow) = row * f.ow :=
      fun row hrow => u32_of_lt (mul_lt (by omega) (by omega))
    simp only [scaledYMoves, mem_nested, List.mem_singleton]
    constructor
    · rintro ⟨row, hrow, col, hcol, rfl⟩
      exact ⟨row, hrow, col, hcol, by rw [hplace row hrow, scaledY_index ha hrow hcol]⟩
    · rintro ⟨row, hrow, col, hcol, rfl⟩
      exact ⟨row, hrow, col, hcol, by rw [hplace row hrow, scaledY_index ha hrow hcol]⟩
  · obtain ⟨how, hoh⟩ := not_scaled hs
    rw [mem_plainMoves ha hh', how, hoh]
    simp only [Nat.mul_div_cancel _ hw, Nat.mul_div_cancel _ hh, yIndex]

theorem mem_scaledVuMoves (ha : f.Accepted) {m : Nat × Nat} :
    m ∈ f.scaledVuMoves (f.vuLut stack) ↔ ∃ row < f.oh / 2, ∃ col < f.ow / 2, ∃ b < 2,
      (row * f.ow + (col * 2 + b), f.vuIndex (row * f.h / f.oh) (f.pairColumn col + b)) = m := by
  obtain ⟨⟨-, how⟩, -, hoh⟩ := outputSize_le ha
  have hplace : ∀ row < f.oh / 2, u32 (row * f.ow) = row * f.ow :=
    fun row hrow => u32_of_lt (mul_lt (by omega) (by omega))
  have hnext : ∀ row col, f.vuIndex row (f.pairColumn col + 1) = f.vuIndex row (f.pairColumn col) + 1 := by
    intro row col
    have hsucc : f.vuAddress row (f.pairColumn col + 1) = f.vuAddress row (f.pairColumn col) + 1 :=
      vuAddress_succ (by unfold pairColumn; omega)
    unfold vuAddress at hsucc
    unfold vuIndex
    omega
  simp only [scaledVuMoves, mem_nested, List.mem_cons, List.not_mem_nil, or_false]
  constructor
  · rintro ⟨row, hrow, col, hcol, rfl | rfl⟩
    · exact ⟨row, hrow, col, hcol, 0, by decide, by rw [hplace row hrow, scaledVu_index ha hrow hcol]; rfl⟩
    · exact ⟨row, hrow, col, hcol, 1, by decide,
        by rw [hplace row hrow, scaledVu_index ha hrow hcol, hnext]⟩
  · rintro ⟨row, hrow, col, hcol, b, hb, rfl⟩
    refine ⟨row, hrow, col, hcol, ?_⟩
    rw [hplace row hrow, scaledVu_index ha hrow hcol]
    obtain rfl | rfl : b = 0 ∨ b = 1 := by omega
    · exact .inl rfl
    · exact .inr (by rw [hnext])

theorem yMoves_inside (ha : f.Accepted) {m : Nat × Nat} (hm : m ∈ f.yMoves stack) :
    m.1 < f.yRoom ∧ m.2 < f.tiles * 1024 * ((f.h + 15) / 16) := by
  obtain ⟨⟨hw, hh, hw', hh', -⟩, -⟩ := id ha
  obtain ⟨⟨-, how⟩, -, hoh⟩ := outputSize_le ha
  obtain ⟨row, hrow, col, hcol, rfl⟩ := (mem_yMoves ha).mp hm
  refine ⟨?_, yIndex_lt ha (sample_lt hrow hh) (sample_lt hcol hw)⟩
  have hplace : row * f.ow + col < f.oh * f.ow := place_lt hrow hcol
  have hroom : f.oh * f.ow ≤ 1080 * 1920 := Nat.mul_le_mul hoh how
  unfold yRoom
  dsimp only
  split_ifs <;> omega

theorem vuMoves_inside (ha : f.Accepted) {m : Nat × Nat} (hm : m ∈ f.vuMoves stack) :
    m.1 < f.vuRoom ∧ m.2 < f.tiles * 512 * (((f.h + 1) / 2 + 7) / 8) := by
  obtain ⟨⟨-, -, hw, hh, -⟩, -⟩ := id ha
  obtain ⟨⟨-, how⟩, -, hoh⟩ := outputSize_le ha
  unfold vuMoves at hm
  unfold vuRoom
  split_ifs at hm ⊢ with hs
  · obtain ⟨row, hrow, col, hcol, b, hb, rfl⟩ := (mem_scaledVuMoves ha).mp hm
    obtain ⟨hsample, hpair⟩ := pair_inside ha hrow hcol
    refine ⟨?_, vuIndex_lt ha hsample (by omega)⟩
    have hplace : row * f.ow + (col * 2 + b) < f.oh / 2 * f.ow := place_lt hrow (by omega)
    have hroom : f.oh / 2 * f.ow ≤ 540 * 1920 := Nat.mul_le_mul (by omega) how
    dsimp only
    omega
  · obtain ⟨row, hrow, col, hcol, rfl⟩ := (mem_plainMoves ha (by omega)).mp hm
    refine ⟨?_, vuIndex_lt ha hrow hcol⟩
    have hplace : row * f.w + col < f.h / 2 * f.w := place_lt hrow hcol
    have hroom : f.h / 2 * f.w ≤ 1152 * 4096 := Nat.mul_le_mul (by omega) hw
    dsimp only
    omega

/-! ### The products of 32 bits -/

/-- The products that the loops of a branch come to, with the sums they stand in, before they
are cut to 32 bits. -/
def products (f : Frame) : List Nat :=
  if f.Scaled then
    ((List.range f.ow).flatMap fun col =>
      let sx := col * f.w / f.ow
      col * f.w :: (List.range 16).map fun ty =>
        sx / 64 * 1024 + (ty ^^^ ((sx / 64 &&& 3) <<< 2)) * 64 + sx % 64) ++
    ((List.range (f.ow / 2)).flatMap fun col =>
      let sx := even (col * 2 * f.w / f.ow)
      col * 2 * f.w :: (List.range 8).map fun ty =>
        sx / 64 * 512 + (ty ^^^ ((sx / 64 &&& 1) <<< 2)) * 64 + sx % 64) ++
    ((List.range f.oh).flatMap fun row =>
      [row * f.h, row * f.ow, row * f.h / f.oh / 16 * f.tiles * 1024]) ++
    ((List.range (f.oh / 2)).flatMap fun row =>
      [row * f.h, row * f.ow, row * f.h / f.oh / 8 * f.tiles * 512])
  else
    ((List.range f.h).flatMap fun row => row * f.w :: (List.range ((f.w + 63) / 64)).flatMap fun tx =>
      [tx * 64, (row / 16 * f.tiles + tx) * 1024 + ((row % 16) ^^^ ((tx &&& 3) <<< 2)) * 64]) ++
    ((List.range (f.h / 2)).flatMap fun row => row * f.w :: (List.range ((f.w + 63) / 64)).flatMap fun tx =>
      [tx * 64, (row / 8 * f.tiles + tx) * 512 + ((row % 8) ^^^ ((tx &&& 1) <<< 2)) * 64])

theorem products_lt (ha : f.Accepted) : ∀ n ∈ f.products, n < 2 ^ 32 := by
  obtain ⟨⟨hw, hh, hw', hh', -⟩, -⟩ := id ha
  obtain ⟨⟨-, how⟩, -, hoh⟩ := outputSize_le ha
  have htiles := tiles_le ha
  have hmul : ∀ {a b : Nat}, a ≤ 4096 → b ≤ 4096 → a * b < 2 ^ 32 := mul_lt
  have hyLane : ∀ ty < 16, ∀ tx, ty ^^^ ((tx &&& 3) <<< 2) < 16 := fun ty hty tx => swizzle_lt hty
  have hvuLane : ∀ ty < 8, ∀ tx, ty ^^^ ((tx &&& 1) <<< 2) < 8 := fun ty hty tx => swizzleVu_lt hty
  have hband : ∀ b ≤ 144, b * f.tiles ≤ 144 * 64 := fun b hb => Nat.mul_le_mul hb htiles
  intro n hn
  unfold products at hn
  split_ifs at hn with hs
  · simp only [List.mem_append, List.mem_flatMap, List.mem_range, List.mem_cons, List.mem_map,
      List.not_mem_nil, or_false] at hn
    rcases hn with ((⟨col, hcol, rfl | ⟨ty, hty, rfl⟩⟩ | ⟨col, hcol, rfl | ⟨ty, hty, rfl⟩⟩) |
      ⟨row, hrow, hn⟩) | ⟨row, hrow, hn⟩
    · exact hmul (by omega) hw'
    · have hsample := sample_lt hcol hw
      have hlane := hyLane ty hty (col * f.w / f.ow / 64)
      omega
    · exact hmul (by omega) hw'
    · have hsample : col * 2 * f.w / f.ow < f.w := sample_lt (by omega) hw
      have heven : even (col * 2 * f.w / f.ow) ≤ col * 2 * f.w / f.ow := even_le (by omega)
      have hlane := hvuLane ty hty (even (col * 2 * f.w / f.ow) / 64)
      omega
    · have hsample := sample_lt hrow hh
      have hb := hband (row * f.h / f.oh / 16) (by omega)
      rcases hn with rfl | rfl | rfl
      · exact hmul (by omega) (by omega)
      · exact hmul (by omega) (by omega)
      · omega
    · have hsample := (pair_row ha hrow)
      have hb := hband (row * f.h / f.oh / 8) (by omega)
      rcases hn with rfl | rfl | rfl
      · exact hmul (by omega) (by omega)
      · exact hmul (by omega) (by omega)
      · omega
  · simp only [List.mem_append, List.mem_flatMap, List.mem_range, List.mem_cons, List.not_mem_nil,
      or_false] at hn
    rcases hn with ⟨row, hrow, rfl | ⟨tx, htx, rfl | rfl⟩⟩ | ⟨row, hrow, rfl | ⟨tx, htx, rfl | rfl⟩⟩
    · exact hmul (by omega) hw'
    · omega
    · have hb := hband (row / 16) (by omega)
      have hlane := hyLane (row % 16) (by omega) tx
      omega
    · exact hmul (by omega) hw'
    · omega
    · have hb := hband (row / 8) (by omega)
      have hlane := hvuLane (row % 8) (by omega) tx
      omega

/-- The addresses of every frame that passes the guards. -/
theorem detile_addresses (f : Frame) (stack : Nat × Nat → Nat) (ha : f.Accepted) :
    ((2 ≤ f.ow ∧ f.ow ≤ min f.w 1920) ∧ 2 ≤ f.oh ∧ f.oh ≤ min f.h 1080) ∧
      (∀ m ∈ f.yMoves stack, m.1 < f.yRoom ∧ m.2 < f.tiles * 1024 * ((f.h + 15) / 16)) ∧
      (∀ m ∈ f.vuMoves stack, m.1 < f.vuRoom ∧ m.2 < f.tiles * 512 * (((f.h + 1) / 2 + 7) / 8)) ∧
      Set.InjOn (fun p : Nat × Nat => f.yIndex p.1 p.2) {p | p.1 < f.h ∧ p.2 < f.w} ∧
      Set.InjOn (fun p : Nat × Nat => f.vuIndex p.1 p.2) {p | p.1 < f.h / 2 ∧ p.2 < f.w} ∧
      ∀ n ∈ f.products, n < 2 ^ 32 := by
  obtain ⟨⟨how, how'⟩, hoh, hoh'⟩ := outputSize_le ha
  exact ⟨⟨⟨ha.2.1, le_min how how'⟩, ha.2.2, le_min hoh hoh'⟩, fun m hm => yMoves_inside ha hm,
    fun m hm => vuMoves_inside ha hm, yIndex_injOn ha, vuIndex_injOn ha, products_lt ha⟩

theorem detile_addresses_wide :
    wideFrame.tiles * 1024 * ((wideFrame.h + 15) / 16) = 2560 * 1600 ∧
      ∀ m ∈ wideFrame.yMoves (fun _ => 0), m.1 < 1920 * 1080 ∧ m.2 < 2560 * 1600 :=
  ⟨by decide, (detile_addresses wideFrame (fun _ => 0) (by decide)).2.1⟩

end RustDesk.Goke.Frame
