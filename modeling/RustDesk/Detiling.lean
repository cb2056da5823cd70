import RustDesk.StoreLoop
import Mathlib.Data.Nat.Bitwise

/-!
# The picture in a decoded frame

The decoder leaves the two planes of a picture in tiles of 64 columns, with the rows of a tile
permuted in a way that depends on the column of the tile. `nv21_from_frame` reads them out row
by row; a picture that is too large for the peer is sampled at the same time, through tables of
the addresses within a band of tiles.

A plane is what is found from its address on, and a scratch buffer has no end here.
-/

namespace RustDesk.Goke

open StoreLoop (store nested)

abbrev Plane := Nat → UInt8

/-- The words of the frame descriptor. -/
abbrev Frame := Nat → BitVec 32

/-- The value of an expression of `uint32_t`. -/
def u32 (n : Nat) : Nat := n % 2 ^ 32

/-- `& ~1u` -/
def even (n : Nat) : Nat := n &&& 0xFFFFFFFE

structure Scratch where
  ylin : Plane
  vulin : Plane
  yscale : Plane
  vuscale : Plane

/-- What goes to the peer. -/
structure Picture where
  width : Nat
  height : Nat
  y : Plane
  vu : Plane

namespace Frame

variable (f : Frame)

def w : Nat := (f 71).toNat
def h : Nat := (f 72).toNat
def stride : Nat := (f 6).toNat
def tiles : Nat := f.stride / 64

/-- Where the pixels begin in a mapped buffer. -/
def pixelOffset (buffer pixels : BitVec 32) : Nat :=
  if pixels ≠ 0 ∧ buffer < pixels ∧ (pixels - buffer).toNat < 0x100000 then
    (pixels - buffer).toNat
  else 0

def yoff : Nat := pixelOffset (f 2) (f 3)
def vuoff : Nat := pixelOffset (f 7) (f 8)

/-- `ow` and `oh`; the products are of 64 bits. -/
def outputSize : Nat × Nat :=
  if 1920 < f.w ∨ 1080 < f.h then
    if f.h * 1920 < f.w * 1080 then (1920, even (f.h * 1920 / f.w))
    else (even (f.w * 1080 / f.h), 1080)
  else (f.w, f.h)

def ow : Nat := f.outputSize.1
def oh : Nat := f.outputSize.2

/-- The guards before the first lookup. -/
def Accepted : Prop :=
  (0 < f.w ∧ 0 < f.h ∧ f.w ≤ 4096 ∧ f.h ≤ 2304 ∧ f.w ≤ f.stride ∧ f.stride % 64 = 0 ∧
    f.stride ≤ 4096) ∧ 2 ≤ f.ow ∧ 2 ≤ f.oh

instance : Decidable f.Accepted := inferInstanceAs (Decidable (_ ∧ _))

/-- The picture is sampled. -/
def Scaled : Prop := f.ow ≠ f.w ∨ f.oh ≠ f.h

instance : Decidable f.Scaled := inferInstanceAs (Decidable (_ ∨ _))

/-! ### The look-up tables -/

/-- `y_lut`, over what is on the stack. -/
def yLut (stack : Nat × Nat → Nat) : Nat × Nat → Nat :=
  store stack (nested f.ow (fun _ => 16) fun col ty =>
    let sx := u32 (col * f.w) / f.ow
    let tx := sx / 64
    let k := sx % 64
    [((ty, col), u32 (tx * 1024 + (ty ^^^ ((tx &&& 3) <<< 2)) * 64 + k))])

def vuLut (stack : Nat × Nat → Nat) : Nat × Nat → Nat :=
  store stack (nested (f.ow / 2) (fun _ => 8) fun col ty =>
    let sx := even (u32 (u32 (col * 2) * f.w) / f.ow)
    let tx := sx / 64
    let k := sx % 64
    [((ty, col), u32 (tx * 512 + (ty ^^^ ((tx &&& 1) <<< 2)) * 64 + k))])

def scaledY (lut : Nat × Nat → Nat) (y dst : Plane) : Plane :=
  store dst (nested f.oh (fun _ => f.ow) fun row col =>
    let sy := u32 (row * f.h) / f.oh
    let band := sy / 16
    let ty := sy % 16
    [(u32 (row * f.ow) + col, y (f.yoff + u32 (band * f.tiles * 1024) + lut (ty, col)))])

def scaledVu (lut : Nat × Nat → Nat) (vu dst : Plane) : Plane :=
  store dst (nested (f.oh / 2) (fun _ => f.ow / 2) fun row col =>
    let sy := u32 (row * f.h) / f.oh
    let band := sy / 8
    let ty := sy % 8
    let p := f.vuoff + u32 (band * f.tiles * 512) + lut (ty, col)
    [(u32 (row * f.ow) + col * 2, vu p), (u32 (row * f.ow) + (col * 2 + 1), vu (p + 1))])

/-! ### The plain copy -/

/-- The bytes of a row that are in one tile. -/
def tileBytes (tx : Nat) : Nat := if 64 < f.w - tx * 64 then 64 else f.w - tx * 64

def memcpy (dst : Nat) (src : Plane) (place n : Nat) : List (Nat × UInt8) :=
  (List.range n).map fun j => (dst + j, src (place + j))

def yTile (row tx : Nat) : Nat :=
  u32 (((row / 16) * f.tiles + tx) * 1024 + ((row % 16) ^^^ ((tx &&& 3) <<< 2)) * 64)

def vuTile (row tx : Nat) : Nat :=
  u32 (((row / 8) * f.tiles + tx) * 512 + ((row % 8) ^^^ ((tx &&& 1) <<< 2)) * 64)

def plainY (y dst : Plane) : Plane :=
  store dst (nested f.h (fun _ => (f.w + 63) / 64) fun row tx =>
    memcpy (u32 (row * f.w) + tx * 64) y (f.yoff + f.yTile row tx) (f.tileBytes tx))

def plainVu (vu dst : Plane) : Plane :=
  store dst (nested (f.h / 2) (fun _ => (f.w + 63) / 64) fun row tx =>
    memcpy (u32 (row * f.w) + tx * 64) vu (f.vuoff + f.vuTile row tx) (f.tileBytes tx))

/-- `nv21_from_frame` from the mapped planes on. -/
def detile (y vu : Plane) (stack : Nat × Nat → Nat) (sc : Scratch) : Scratch :=
  if f.Scaled then
    { sc with yscale := f.scaledY (f.yLut stack) y sc.yscale
              vuscale := f.scaledVu (f.vuLut stack) vu sc.vuscale }
  else { sc with ylin := f.plainY y sc.ylin, vulin := f.plainVu vu sc.vulin }

def picture (sc : Scratch) : Picture :=
  if f.Scaled then ⟨f.ow, f.oh, sc.yscale, sc.vuscale⟩ else ⟨f.ow, f.oh, sc.ylin, sc.vulin⟩

end Frame

/-! ### Numbers -/

theorem u32_of_lt {n : Nat} (h : n < 2 ^ 32) : u32 n = n := Nat.mod_eq_of_lt h

theorem even_eq {n : Nat} (h : n < 2 ^ 32) : even n = 2 * (n / 2) := by
  have hmask : 0xFFFFFFFE = (2 ^ 31 - 1) <<< 1 := by decide
  have hsplit : 2 * (n / 2) = (n >>> 1) <<< 1 := by
    rw [Nat.shiftLeft_eq, Nat.shiftRight_eq_div_pow]
    omega
  apply Nat.eq_of_testBit_eq
  intro i
  rw [even, hmask, hsplit, Nat.testBit_and, Nat.testBit_shiftLeft, Nat.testBit_shiftLeft,
    Nat.testBit_two_pow_sub_one, Nat.testBit_shiftRight]
  by_cases hi : 1 ≤ i
  · have hback : 1 + (i - 1) = i := by omega
    rw [hback]
    by_cases hbig : i - 1 < 31
    · simp [hi, hbig]
    · have hzero : n.testBit i = false := by
        apply Nat.testBit_lt_two_pow
        calc n < 2 ^ 32 := h
          _ ≤ 2 ^ i := Nat.pow_le_pow_right (by decide) (by omega)
      simp [hzero]
  · simp [hi]

theorem even_le {n : Nat} (h : n < 2 ^ 32) : even n ≤ n := by
  rw [even_eq h]
  omega

/-- The place of a byte in a plane, found through its band and within the band. -/
theorem u32_tile {offset b tx x k size : Nat} (h : (b + tx) * size + x * 64 + k < 2 ^ 32) :
    offset + u32 (b * size) + u32 (tx * size + x * 64 + k) =
      offset + u32 ((b + tx) * size + x * 64) + k := by
  rw [Nat.add_mul] at h ⊢
  rw [u32_of_lt (by omega), u32_of_lt (by omega), u32_of_lt (by omega)]
  omega

theorem row_col_inj {n r c r' c' : Nat} (hc : c < n) (hc' : c' < n)
    (h : r * n + c = r' * n + c') : r = r' ∧ c = c' := by
  have hn : 0 < n := by omega
  have hr : r = r' := by
    have hdiv := congrArg (· / n) h
    simpa only [Nat.mul_comm _ n, Nat.mul_add_div hn, Nat.div_eq_of_lt hc, Nat.div_eq_of_lt hc',
      Nat.add_zero] using hdiv
  subst hr
  exact ⟨rfl, by omega⟩

theorem sample_lt {i n m : Nat} (hi : i < m) (hn : 0 < n) : i * n / m < n := by
  apply Nat.div_lt_of_lt_mul
  exact (Nat.mul_lt_mul_right hn).mpr hi

/-- As many places as are left behind an index are left behind its sample. -/
theorem sample_add_le {i j n m : Nat} (hi : i + j ≤ m) (hn : m ≤ n) :
    i * n / m + j ≤ n := by
  have hle : i * n ≤ m * (n - j) := by
    calc i * n ≤ (m - j) * n := Nat.mul_le_mul_right n (by omega)
      _ = m * n - j * n := Nat.sub_mul _ _ _
      _ ≤ m * n - m * j := Nat.sub_le_sub_left (by rw [Nat.mul_comm]; exact Nat.mul_le_mul_left j hn) _
      _ = m * (n - j) := (Nat.mul_sub _ _ _).symm
  have hdiv : i * n / m ≤ n - j := Nat.div_le_of_le_mul hle
  omega

theorem swizzle_lt {ty tx : Nat} (hty : ty < 16) : ty ^^^ ((tx &&& 3) <<< 2) < 16 := by
  have hlane : (tx &&& 3) <<< 2 < 2 ^ 4 := by
    have hand : tx &&& 3 ≤ 3 := Nat.and_le_right
    rw [Nat.shiftLeft_eq]
    omega
  exact Nat.xor_lt_two_pow hty hlane

theorem swizzleVu_lt {ty tx : Nat} (hty : ty < 8) : ty ^^^ ((tx &&& 1) <<< 2) < 8 := by
  have hlane : (tx &&& 1) <<< 2 < 2 ^ 3 := by
    have hand : tx &&& 1 ≤ 1 := Nat.and_le_right
    rw [Nat.shiftLeft_eq]
    omega
  exact Nat.xor_lt_two_pow hty hlane

namespace Frame

variable {f : Frame}

/-! ### The sizes -/

theorem outputSize_le (ha : f.Accepted) :
    (f.ow ≤ f.w ∧ f.ow ≤ 1920) ∧ f.oh ≤ f.h ∧ f.oh ≤ 1080 := by
  obtain ⟨⟨hw, hh, hw', hh', -⟩, -⟩ := ha
  have hover : f.h * 1920 / f.w < 2 ^ 32 := (Nat.div_le_self _ _).trans_lt (by omega)
  have hover' : f.w * 1080 / f.h < 2 ^ 32 := (Nat.div_le_self _ _).trans_lt (by omega)
  unfold ow oh outputSize
  split_ifs with hbig hwide
  · -- the width decides
    have hlt : f.h * 1920 / f.w < 1080 := Nat.div_lt_of_lt_mul hwide
    have hle : f.h * 1920 / f.w ≤ f.h := by
      apply Nat.div_le_of_le_mul
      rw [Nat.mul_comm]
      exact Nat.mul_le_mul_right f.h (by omega)
    have heven := even_le hover
    dsimp only
    omega
  · have hle : f.w * 1080 / f.h ≤ 1920 := by
      apply Nat.div_le_of_le_mul
      omega
    have hle' : f.w * 1080 / f.h ≤ f.w := by
      apply Nat.div_le_of_le_mul
      rw [Nat.mul_comm]
      exact Nat.mul_le_mul_right f.w (by omega)
    have heven := even_le hover'
    dsimp only
    omega
  · dsimp only
    omega

theorem tiles_le (ha : f.Accepted) : f.tiles ≤ 64 := by
  obtain ⟨⟨-, -, -, -, -, -, hs⟩, -⟩ := ha
  unfold tiles
  omega

theorem mul_lt {a b : Nat} (ha : a ≤ 4096) (hb : b ≤ 4096) : a * b < 2 ^ 32 :=
  (Nat.mul_le_mul ha hb).trans_lt (by decide)

end Frame

end RustDesk.Goke
