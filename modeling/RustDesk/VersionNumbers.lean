import RustDesk.SplitText
import Mathlib.Data.Nat.Digits.Lemmas

/-!
# Version numbers

Peers tell each other their version as a text, and what a peer can do is decided by comparing
numbers that `get_version_number` makes of them. The components are digits to the base 1000; then
the last one is taken ten times, to leave room for the patch behind the dash. A component that is
no number counts as zero. Text is a list of characters.
-/

namespace RustDesk.Versions

/-- The result of an operation on `i64`, where it does not overflow. -/
def checkedI64 (n : Int) : Option Int := if -2 ^ 63 ≤ n ∧ n < 2 ^ 63 then some n else none

/-- `str::parse::<i64>`: an optional sign and decimal digits, within 64 bits. -/
def parseI64 (s : List Char) : Option Int :=
  let signed : Bool × List Char := match s with
    | '-' :: ds => (true, ds)
    | '+' :: ds => (false, ds)
    | ds => (false, ds)
  if signed.2.isEmpty || !signed.2.all Char.isDigit then none
  else
    let n : Int := Nat.ofDigitChars 10 signed.2 0
    checkedI64 (if signed.1 then -n else n)

def number (s : List Char) : Int := (parseI64 s).getD 0

/-- The loop over the components, with `n` and `last`. -/
def addComponents : List (List Char) → Int × Int → Option (Int × Int)
  | [], acc => some acc
  | x :: xs, (n, _) => do
    let last := number x
    let n ← checkedI64 (n * 1000)
    let n ← checkedI64 (n + last)
    addComponents xs (n, last)

/-- The number before the dash: the last component is taken off and put back ten times. -/
def addVersion (v : List Char) : Option Int := do
  let (n, last) ← addComponents (v.splitOn '.') (0, 0)
  let n ← checkedI64 (n - last)
  let tenfold ← checkedI64 (last * 10)
  checkedI64 (n + tenfold)

/-- `none` is an overflow. -/
def getVersionNumber (v : List Char) : Option Int := do
  let versions := v.splitOn '-'
  let n ← match versions[0]? with
    | none => some 0
    | some v => addVersion v
  match versions[1]? with
  | none => some n
  | some v => checkedI64 (n + number v)

/-! ### The numbers in a text -/

def front (v : List Char) : List Char := (v.splitOn '-').headD []

/-- The numbers before the dash. -/
def components (v : List Char) : List Nat := ((front v).splitOn '.').map fun x => (number x).toNat

/-- The number between the first dash and the second. -/
def patchOf (v : List Char) : Nat := ((v.splitOn '-')[1]?.map fun x => (number x).toNat).getD 0

/-- The components as digits to the base 1000, with the last of them ten times, and the patch. -/
def weight (v : List Char) : Nat :=
  Nat.ofDigits 1000 (components v).reverse + 9 * (components v).getLastD 0 + patchOf v

variable {s v : List Char} {n : Int}

theorem checkedI64_of_nonneg (h : 0 ≤ n) : checkedI64 n = if n < 2 ^ 63 then some n else none := by
  rw [checkedI64]
  by_cases hlt : n < 2 ^ 63
  · rw [if_pos hlt, if_pos ⟨by omega, hlt⟩]
  · rw [if_neg hlt, if_neg fun hboth => hlt hboth.2]

theorem checkedI64_eq_some (h : 0 ≤ n) (hlt : n < 2 ^ 63) : checkedI64 n = some n := by
  rw [checkedI64_of_nonneg h, if_pos hlt]

theorem checkedI64_natCast (m : Nat) :
    checkedI64 m = if m < 2 ^ 63 then some (m : Int) else none := by
  by_cases hlt : m < 2 ^ 63
  · rw [if_pos hlt, checkedI64_eq_some (Int.natCast_nonneg m) (by omega)]
  · rw [if_neg hlt, checkedI64, if_neg (by omega)]

/-- Without a dash there is no negative number. -/
theorem number_nonneg (hs : '-' ∉ s) : 0 ≤ number s := by
  have hsigned : ∀ m : Nat, 0 ≤ (checkedI64 (m : Int)).getD 0 := by
    intro m
    rw [checkedI64_of_nonneg (Int.natCast_nonneg m)]
    split
    · exact Int.natCast_nonneg m
    · exact Int.le_refl 0
  unfold number parseI64
  split
  · exact absurd List.mem_cons_self hs
  all_goals
    dsimp only
    split
    · exact Int.le_refl 0
    · exact hsigned _

theorem toNat_number (hs : '-' ∉ s) : ((number s).toNat : Int) = number s :=
  Int.toNat_of_nonneg (number_nonneg hs)

theorem dash_notMem_front (v : List Char) : '-' ∉ front v := by
  rw [front]
  cases hv : v.splitOn '-' with
  | nil => exact absurd hv (List.splitOn_ne_nil _ _)
  | cons first rest => exact SplitText.notMem_of_mem_splitOn (hv ▸ List.mem_cons_self)

/-! ### The loop -/

/-- `last` after the loop. -/
def lastOf (last : Int) (xs : List (List Char)) : Int := (xs.getLast?.map number).getD last

/-- `n` after the loop, without a bound. -/
def spell (n : Int) (xs : List (List Char)) : Int := xs.foldl (fun n x => n * 1000 + number x) n

theorem le_spell {xs : List (List Char)} (hxs : ∀ x ∈ xs, '-' ∉ x) (hn : 0 ≤ n) : n ≤ spell n xs := by
  induction xs generalizing n with
  | nil => exact Int.le_refl n
  | cons x xs ih =>
    have hx : 0 ≤ number x := number_nonneg (hxs x List.mem_cons_self)
    have hrest : n * 1000 + number x ≤ spell (n * 1000 + number x) xs :=
      ih (fun y hy => hxs y (List.mem_cons_of_mem x hy)) (by omega)
    have hcons : spell n (x :: xs) = spell (n * 1000 + number x) xs := rfl
    omega

theorem addComponents_eq {xs : List (List Char)} (hxs : ∀ x ∈ xs, '-' ∉ x) (hn : 0 ≤ n)
    (hlt : n < 2 ^ 63) (last : Int) :
    addComponents xs (n, last) =
      if spell n xs < 2 ^ 63 then some (spell n xs, lastOf last xs) else none := by
  induction xs generalizing n last with
  | nil => exact (if_pos hlt).symm
  | cons x xs ih =>
    have hx : 0 ≤ number x := number_nonneg (hxs x List.mem_cons_self)
    have hrest : ∀ y ∈ xs, '-' ∉ y := fun y hy => hxs y (List.mem_cons_of_mem x hy)
    have hcons : spell n (x :: xs) = spell (n * 1000 + number x) xs := rfl
    have hlast : lastOf last (x :: xs) = lastOf (number x) xs := by
      cases xs with
      | nil => rfl
      | cons y ys => simp [lastOf, List.getLast?_cons]
    have hle : n * 1000 + number x ≤ spell (n * 1000 + number x) xs := le_spell hrest (by omega)
    rw [hcons, hlast, addComponents]
    by_cases hfits : n * 1000 + number x < 2 ^ 63
    · have hmul : checkedI64 (n * 1000) = some (n * 1000) := checkedI64_eq_some (by omega) (by omega)
      have hadd : checkedI64 (n * 1000 + number x) = some (n * 1000 + number x) :=
        checkedI64_eq_some (by omega) hfits
      simp only [hmul, hadd, Option.bind_eq_bind, Option.bind_some]
      exact ih hrest (by omega) hfits (number x)
    · -- the product or the sum overflows, and what follows only adds to it
      have hover : ¬ spell (n * 1000 + number x) xs < 2 ^ 63 := by omega
      have hadd : checkedI64 (n * 1000 + number x) = none := by
        rw [checkedI64_of_nonneg (by omega), if_neg hfits]
      rw [if_neg hover, checkedI64_of_nonneg (by omega)]
      by_cases hmul : n * 1000 < 2 ^ 63
      · simp only [if_pos hmul, hadd, Option.bind_eq_bind, Option.bind_some, Option.bind_none]
      · simp only [if_neg hmul, Option.bind_eq_bind, Option.bind_none]

theorem spell_eq_ofDigits {xs : List (List Char)} (hxs : ∀ x ∈ xs, '-' ∉ x) :
    spell 0 xs = (Nat.ofDigits 1000 (xs.map fun x => (number x).toNat).reverse : Nat) := by
  induction xs using List.reverseRecOn with
  | nil => rfl
  | append_singleton xs x ih =>
    have hx : ((number x).toNat : Int) = number x := toNat_number (hxs x (by simp))
    have hrest := ih fun y hy => hxs y (List.mem_append_left _ hy)
    have hsnoc : spell 0 (xs ++ [x]) = spell 0 xs * 1000 + number x := by
      simp [spell, List.foldl_append]
    rw [hsnoc, hrest, List.map_append, List.reverse_append, List.map_singleton, List.reverse_singleton,
      List.singleton_append, Nat.ofDigits_cons]
    push_cast
    rw [hx]
    ring

theorem lastOf_eq {xs : List (List Char)} (hxs : ∀ x ∈ xs, '-' ∉ x) :
    lastOf 0 xs = ((xs.map fun x => (number x).toNat).getLastD 0 : Nat) := by
  induction xs using List.reverseRecOn with
  | nil => rfl
  | append_singleton xs x ih =>
    have hx : ((number x).toNat : Int) = number x := toNat_number (hxs x (by simp))
    simp [lastOf, List.getLastD_eq_getLast?, hx]

theorem lastOf_le_spell {xs : List (List Char)} (hxs : ∀ x ∈ xs, '-' ∉ x) : lastOf 0 xs ≤ spell 0 xs := by
  induction xs using List.reverseRecOn with
  | nil => exact Int.le_refl 0
  | append_singleton xs x ih =>
    have hrest : 0 ≤ spell 0 xs := le_spell (fun y hy => hxs y (List.mem_append_left _ hy)) (by omega)
    have hsnoc : spell 0 (xs ++ [x]) = spell 0 xs * 1000 + number x := by
      simp [spell, List.foldl_append]
    have hlast : lastOf 0 (xs ++ [x]) = number x := by simp [lastOf]
    omega

/-! ### The number of a text -/

theorem addVersion_eq (hs : '-' ∉ s) :
    addVersion s = checkedI64 (spell 0 (s.splitOn '.') + 9 * lastOf 0 (s.splitOn '.')) := by
  have hxs : ∀ x ∈ s.splitOn '.', '-' ∉ x := fun x hx hmem => hs (SplitText.mem_of_mem_splitOn hx hmem)
  rw [addVersion, addComponents_eq hxs (Int.le_refl 0) (by omega) 0]
  have hle := lastOf_le_spell hxs
  have hnonneg : 0 ≤ lastOf 0 (s.splitOn '.') := by
    rw [lastOf_eq hxs]
    exact Int.natCast_nonneg _
  generalize spell 0 (s.splitOn '.') = n at *
  generalize lastOf 0 (s.splitOn '.') = last at *
  have hsum : n - last + last * 10 = n + 9 * last := by ring
  by_cases hspell : n < 2 ^ 63
  · have hsub : checkedI64 (n - last) = some (n - last) := checkedI64_eq_some (by omega) (by omega)
    simp only [if_pos hspell, hsub, Option.bind_eq_bind, Option.bind_some]
    rw [checkedI64_of_nonneg (by omega)]
    by_cases hten : last * 10 < 2 ^ 63
    · rw [if_pos hten, Option.bind_some, hsum]
    · rw [if_neg hten, Option.bind_none, checkedI64, if_neg (by omega)]
  · simp only [if_neg hspell, Option.bind_eq_bind, Option.bind_none]
    rw [checkedI64, if_neg (by omega)]

theorem addVersion_front (v : List Char) :
    addVersion (front v) = checkedI64
      (Nat.ofDigits 1000 (components v).reverse + 9 * (components v).getLastD 0 : Nat) := by
  have hxs : ∀ x ∈ (front v).splitOn '.', '-' ∉ x := fun x hx hmem =>
    dash_notMem_front v (SplitText.mem_of_mem_splitOn hx hmem)
  have hsum : spell 0 ((front v).splitOn '.') + 9 * lastOf 0 ((front v).splitOn '.') =
      ((Nat.ofDigits 1000 (components v).reverse + 9 * (components v).getLastD 0 : Nat) : Int) := by
    rw [spell_eq_ofDigits hxs, lastOf_eq hxs, components]
    push_cast
    rfl
  rw [addVersion_eq (dash_notMem_front v), hsum]

/-- Every operation only adds to the number, so none overflows unless the whole does. -/
theorem getVersionNumber_eq (v : List Char) :
    getVersionNumber v = checkedI64 (weight v : Nat) := by
  have hfront : (v.splitOn '-')[0]? = some (front v) := by
    rw [front]
    cases hv : v.splitOn '-' with
    | nil => exact absurd hv (List.splitOn_ne_nil _ _)
    | cons first rest => rfl
  simp only [getVersionNumber, hfront, addVersion_front]
  have hweight : weight v = Nat.ofDigits 1000 (components v).reverse +
    9 * (components v).getLastD 0 + patchOf v := rfl
  generalize Nat.ofDigits 1000 (components v).reverse + 9 * (components v).getLastD 0 = m at *
  cases hpatch : (v.splitOn '-')[1]? with
  | none =>
    have hzero : patchOf v = 0 := by rw [patchOf, hpatch]; rfl
    rw [hweight, hzero, Nat.add_zero]
    exact Option.bind_fun_some _
  | some x =>
    have hx : number x = (patchOf v : Int) := by
      rw [patchOf, hpatch]
      exact (toNat_number (SplitText.notMem_of_mem_splitOn (List.mem_of_getElem? hpatch))).symm
    simp only [hx, hweight, Option.bind_eq_bind, Nat.cast_add]
    by_cases hm : m < 2 ^ 63
    · rw [checkedI64_natCast, if_pos hm, Option.bind_some]
    · rw [checkedI64_natCast, if_neg hm, Option.bind_none, checkedI64, if_neg (by omega)]

/-! ### Versions -/

/-- A version `major.minor.micro`, with or without a patch. -/
structure Version where
  major : Nat
  minor : Nat
  micro : Nat
  patch : Option Nat
  major_lt : major < 2 ^ 31
  minor_lt : minor < 1000
  micro_lt : micro < 1000
  patch_le : ∀ p ∈ patch, p ≤ 9

namespace Version

def text (v : Version) : List Char :=
  ['-'].intercalate
    (['.'].intercalate ([v.major, v.minor, v.micro].map (Nat.toDigits 10)) ::
      v.patch.toList.map (Nat.toDigits 10))

def Before (v w : Version) : Prop :=
  v.major < w.major ∨ v.major = w.major ∧
    (v.minor < w.minor ∨ v.minor = w.minor ∧
      (v.micro < w.micro ∨ v.micro = w.micro ∧ v.patch.getD 0 < w.patch.getD 0))

/-- What the number of the version comes to. -/
def value (v : Version) : Nat := v.major * 10 ^ 6 + v.minor * 1000 + v.micro * 10 + v.patch.getD 0

end Version

theorem number_toDigits {m : Nat} (h : m < 2 ^ 63) : number (Nat.toDigits 10 m) = m := by
  have hdigits : ∀ c ∈ Nat.toDigits 10 m, c.isDigit = true := fun c hc =>
    Nat.isDigit_of_mem_toDigits (by decide) (by decide) hc
  have hne : Nat.toDigits 10 m ≠ [] := Nat.toDigits_ne_nil
  have hall : (Nat.toDigits 10 m).all Char.isDigit = true := List.all_eq_true.mpr hdigits
  have hempty : (Nat.toDigits 10 m).isEmpty = false := List.isEmpty_eq_false_iff.mpr hne
  have hvalue : Nat.ofDigitChars 10 (Nat.toDigits 10 m) 0 = m := Nat.ofDigitChars_ten_toDigits
  unfold number parseI64
  split
  · rename_i ds heq
    exact absurd (hdigits '-' (heq ▸ List.mem_cons_self)) (by decide)
  · rename_i ds heq
    exact absurd (hdigits '+' (heq ▸ List.mem_cons_self)) (by decide)
  · simp only [hempty, hall, hvalue, Bool.not_true, Bool.or_self, Bool.false_eq_true, if_false]
    rw [checkedI64_eq_some (Int.natCast_nonneg m) (by omega)]
    rfl

theorem notMem_toDigits {m : Nat} {c : Char} (hc : c.isDigit = false) : c ∉ Nat.toDigits 10 m := by
  intro hmem
  rw [Nat.isDigit_of_mem_toDigits (by decide) (by decide) hmem] at hc
  cases hc

namespace Version

variable (v : Version)

theorem splitOn_text : v.text.splitOn '-' =
    ['.'].intercalate ([v.major, v.minor, v.micro].map (Nat.toDigits 10)) ::
      v.patch.toList.map (Nat.toDigits 10) := by
  apply List.splitOn_intercalate '-'
  · intro x hx hdash
    rcases List.mem_cons.mp hx with rfl | hx
    · rcases SplitText.mem_intercalate hdash with h | ⟨y, hy, hdash⟩
      · cases h
      · obtain ⟨m, -, rfl⟩ := List.mem_map.mp hy
        exact notMem_toDigits (by decide) hdash
    · obtain ⟨m, -, rfl⟩ := List.mem_map.mp hx
      exact notMem_toDigits (by decide) hdash
  · exact List.cons_ne_nil _ _

theorem components_text : components v.text = [v.major, v.minor, v.micro] := by
  have hdots : (['.'].intercalate ([v.major, v.minor, v.micro].map (Nat.toDigits 10))).splitOn '.' =
      [v.major, v.minor, v.micro].map (Nat.toDigits 10) := by
    apply List.splitOn_intercalate '.'
    · intro x hx
      obtain ⟨m, -, rfl⟩ := List.mem_map.mp hx
      exact notMem_toDigits (by decide)
    · exact List.cons_ne_nil _ _
  have hmajor := v.major_lt
  have hminor := v.minor_lt
  have hmicro := v.micro_lt
  rw [components, front, splitOn_text, List.headD_cons, hdots]
  simp only [List.map_cons, List.map_nil, number_toDigits (show v.major < 2 ^ 63 by omega),
    number_toDigits (show v.minor < 2 ^ 63 by omega), number_toDigits (show v.micro < 2 ^ 63 by omega),
    Int.toNat_natCast]

theorem patchOf_text : patchOf v.text = v.patch.getD 0 := by
  rw [patchOf, splitOn_text]
  cases hp : v.patch with
  | none => rfl
  | some p =>
    have hle := v.patch_le p hp
    have hnumber := number_toDigits (show p < 2 ^ 63 by omega)
    simp only [Option.toList_some, List.map_cons, List.map_nil, List.getElem?_cons_succ,
      List.getElem?_cons_zero, Option.map_some, hnumber, Int.toNat_natCast, Option.getD_some]

theorem weight_text : weight v.text = v.value := by
  rw [weight, components_text, patchOf_text, value]
  simp [Nat.ofDigits_cons]
  ring

theorem patch_getD_le : v.patch.getD 0 ≤ 9 := by
  cases hp : v.patch with
  | none => exact Nat.zero_le 9
  | some p => exact v.patch_le p hp

theorem getVersionNumber_text : getVersionNumber v.text = some (v.value : Int) := by
  have hmajor := v.major_lt
  have hminor := v.minor_lt
  have hmicro := v.micro_lt
  have hpatch := v.patch_getD_le
  rw [getVersionNumber_eq, weight_text, checkedI64_natCast, if_pos (by rw [value]; omega)]

/-- The number of every later version is greater. -/
def BelowLater : Prop :=
  ∀ w : Version, v.Before w →
    ∃ m n, getVersionNumber v.text = some m ∧ getVersionNumber w.text = some n ∧ m < n

variable {v}

theorem value_lt_of_micro_lt {w : Version} (hmicro : v.micro < 100) (h : v.Before w) :
    v.value < w.value := by
  have hpatch := v.patch_getD_le
  have hminor := v.minor_lt
  rcases h with h | ⟨h, h | ⟨h', h | ⟨h'', h⟩⟩⟩ <;> rw [value, value] <;> omega

/-- Of the last minor version, only the last component can still grow. -/
theorem value_lt_of_last {w : Version} (hmajor : v.major = 2 ^ 31 - 1) (hminor : v.minor = 999)
    (h : v.Before w) : v.value < w.value := by
  have hpatch := v.patch_getD_le
  have hmajor' := w.major_lt
  have hminor' := w.minor_lt
  rcases h with h | ⟨h, h | ⟨h', h | ⟨h'', h⟩⟩⟩ <;> rw [value, value] <;> omega

/-- The next minor version, or the next major one. -/
theorem exists_value_le (hmicro : 100 ≤ v.micro) (hlast : ¬ (v.major = 2 ^ 31 - 1 ∧ v.minor = 999)) :
    ∃ w : Version, v.Before w ∧ w.value ≤ v.value := by
  have hmajor := v.major_lt
  have hminor := v.minor_lt
  by_cases hnext : v.minor = 999
  · have hroom : v.major + 1 < 2 ^ 31 := by omega
    refine ⟨⟨v.major + 1, 0, 0, none, hroom, by decide, by decide, by simp⟩, Or.inl (Nat.lt_succ_self _), ?_⟩
    simp only [value, Option.getD_none]
    omega
  · have hroom : v.minor + 1 < 1000 := by omega
    refine ⟨⟨v.major, v.minor + 1, 0, none, hmajor, hroom, by decide, by simp⟩,
      Or.inr ⟨rfl, Or.inl (Nat.lt_succ_self _)⟩, ?_⟩
    simp only [value, Option.getD_none]
    omega

theorem belowLater_iff :
    v.BelowLater ↔ v.micro < 100 ∨ v.major = 2 ^ 31 - 1 ∧ v.minor = 999 := by
  constructor
  · intro hall
    by_contra hno
    rw [not_or] at hno
    obtain ⟨w, hbefore, hle⟩ := exists_value_le (Nat.not_lt.mp hno.1) hno.2
    obtain ⟨m, n, hm, hn, hlt⟩ := hall w hbefore
    rw [getVersionNumber_text] at hm hn
    cases hm
    cases hn
    omega
  · intro h w hbefore
    refine ⟨_, _, getVersionNumber_text v, getVersionNumber_text w, ?_⟩
    have hlt : v.value < w.value := by
      rcases h with h | h
      · exact value_lt_of_micro_lt h hbefore
      · exact value_lt_of_last h.1 h.2 hbefore
    omega

end Version

theorem getVersionNumber_isSome_iff (v : List Char) :
    (getVersionNumber v).isSome = true ↔ weight v < 2 ^ 63 := by
  rw [getVersionNumber_eq, checkedI64_natCast]
  by_cases h : weight v < 2 ^ 63
  · rw [if_pos h]
    exact iff_of_true rfl h
  · rw [if_neg h]
    exact iff_of_false (fun h => by cases h) h

/-- A version is below all later ones exactly when its third component has two digits at most or
there is no later minor version; and the operations stay within 64 bits exactly when the numbers in
the text, weighed as they are, do. -/
theorem versionNumbers_iff (v : Version) (s : List Char) :
    (v.BelowLater ↔ v.micro < 100 ∨ v.major = 2 ^ 31 - 1 ∧ v.minor = 999) ∧
      ((getVersionNumber s).isSome = true ↔
        Nat.ofDigits 1000 (components s).reverse + 9 * (components s).getLastD 0 + patchOf s < 2 ^ 63) :=
  ⟨Version.belowLater_iff, getVersionNumber_isSome_iff s⟩

def version1d1d100 : Version := ⟨1, 1, 100, none, by decide, by decide, by decide, by simp⟩

def version1d2 : Version := ⟨1, 2, 0, none, by decide, by decide, by decide, by simp⟩

/-- 1.1.100 and 1.2.0 have the same number, and 9223372036854776.0 is too large. -/
theorem versionNumbers_collide :
    version1d1d100.text = "1.1.100".toList ∧ version1d2.text = "1.2.0".toList ∧
      getVersionNumber "1.1.100".toList = some 1002000 ∧ getVersionNumber "1.2.0".toList = some 1002000 ∧
      getVersionNumber "9223372036854776.0".toList = none ∧
      ¬ (∀ v : Version, v.BelowLater) ∧ ¬ ∀ v, (getVersionNumber v).isSome = true := by
  have hover : getVersionNumber "9223372036854776.0".toList = none := by decide +kernel
  refine ⟨by decide +kernel, by decide +kernel, by decide +kernel, by decide +kernel, hover, fun h => ?_,
    fun h => ?_⟩
  · obtain ⟨m, n, hm, hn, hlt⟩ := h version1d1d100 version1d2 (Or.inr ⟨rfl, Or.inl (by decide)⟩)
    rw [Version.getVersionNumber_text] at hm hn
    have heq : version1d1d100.value = version1d2.value := by decide
    rw [heq] at hm
    cases hm
    cases hn
    exact lt_irrefl _ hlt
  · have hsome := h "9223372036854776.0".toList
    rw [hover] at hsome
    cases hsome

end RustDesk.Versions
