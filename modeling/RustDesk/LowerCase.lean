import Mathlib.Data.List.Infix
import Mathlib.Data.List.Basic
import Mathlib.Algebra.GroupWithZero.Nat

/-!
# Text in lower case, and places in it

A text is a list of characters, and a place in it is counted in the bytes of its UTF-8 form, as
strings are. In lower case a character can become several, and take more or fewer bytes. Which ones
change is said by a table of Unicode, of which `Lowercase` keeps the letters of ASCII: besides
themselves, only `İ` and the Kelvin sign have any of them in their lower case. A sigma is written in
one of two ways, which depends on what stands around it; both take two bytes.
-/

namespace LowerCase

def utf8Len (s : List Char) : Nat := (s.map Char.utf8Size).sum

/-- `&s[n..]`, where it does not panic. -/
def sliceFrom : List Char → Nat → Option (List Char)
  | s, 0 => some s
  | [], _ + 1 => none
  | c :: s, n + 1 => if c.utf8Size ≤ n + 1 then sliceFrom s (n + 1 - c.utf8Size) else none

/-- `&s[0..n]`, where it does not panic. -/
def sliceTo : List Char → Nat → Option (List Char)
  | _, 0 => some []
  | [], _ + 1 => none
  | c :: s, n + 1 => if c.utf8Size ≤ n + 1 then (sliceTo s (n + 1 - c.utf8Size)).map (c :: ·) else none

/-- `str::find` -/
def findBytes (w : List Char) : List Char → Option Nat
  | [] => if w.isEmpty then some 0 else none
  | c :: s => if w.isPrefixOf (c :: s) then some 0 else (findBytes w s).map (c.utf8Size + ·)

variable {s a b w x y : List Char} {c d : Char} {n : Nat}

@[simp] theorem utf8Len_nil : utf8Len [] = 0 := rfl

@[simp] theorem utf8Len_cons (c : Char) (s : List Char) : utf8Len (c :: s) = c.utf8Size + utf8Len s := by
  simp [utf8Len]

@[simp] theorem utf8Len_append (a b : List Char) : utf8Len (a ++ b) = utf8Len a + utf8Len b := by
  simp [utf8Len]

theorem length_le_utf8Len (s : List Char) : s.length ≤ utf8Len s := by
  induction s with
  | nil => exact Nat.le_refl 0
  | cons c s ih =>
    have hc := c.utf8Size_pos
    rw [List.length_cons, utf8Len_cons]
    omega

theorem sliceFrom_cons (s : List Char) (n : Nat) :
    sliceFrom (c :: s) (c.utf8Size + n) = sliceFrom s n := by
  have hc := c.utf8Size_pos
  obtain ⟨m, hm⟩ : ∃ m, c.utf8Size + n = m + 1 := ⟨c.utf8Size + n - 1, by omega⟩
  rw [hm, sliceFrom, if_pos (by omega), ← hm, Nat.add_sub_cancel_left]

theorem sliceFrom_append (a b : List Char) : sliceFrom (a ++ b) (utf8Len a) = some b := by
  induction a with
  | nil =>
    rw [List.nil_append, utf8Len_nil]
    cases b <;> rfl
  | cons c a ih => rw [List.cons_append, utf8Len_cons, sliceFrom_cons, ih]

theorem exists_of_sliceFrom (h : sliceFrom s n = some b) : ∃ a, s = a ++ b ∧ utf8Len a = n := by
  induction s generalizing n with
  | nil =>
    cases n with
    | zero => exact ⟨[], by simpa [sliceFrom] using h, rfl⟩
    | succ n => cases h
  | cons c s ih =>
    cases n with
    | zero => exact ⟨[], by simpa [sliceFrom] using h, rfl⟩
    | succ n =>
      rw [sliceFrom] at h
      by_cases hc : c.utf8Size ≤ n + 1
      · rw [if_pos hc] at h
        obtain ⟨a, ha, hlen⟩ := ih h
        refine ⟨c :: a, by rw [ha, List.cons_append], ?_⟩
        rw [utf8Len_cons, hlen]
        omega
      · rw [if_neg hc] at h
        cases h

/-- A place between two characters, or at one of the ends. -/
def IsBoundary (s : List Char) (n : Nat) : Prop := ∃ a b, s = a ++ b ∧ utf8Len a = n

theorem isBoundary_iff : IsBoundary s n ↔ sliceFrom s n ≠ none := by
  rw [Option.ne_none_iff_exists']
  constructor
  · rintro ⟨a, b, rfl, rfl⟩
    exact ⟨b, sliceFrom_append a b⟩
  · rintro ⟨b, hb⟩
    obtain ⟨a, ha⟩ := exists_of_sliceFrom hb
    exact ⟨a, b, ha⟩

theorem sliceTo_append (a b : List Char) : sliceTo (a ++ b) (utf8Len a) = some a := by
  induction a with
  | nil =>
    rw [List.nil_append, utf8Len_nil]
    cases b <;> rfl
  | cons c a ih =>
    have hc := c.utf8Size_pos
    obtain ⟨m, hm⟩ : ∃ m, c.utf8Size + utf8Len a = m + 1 := ⟨c.utf8Size + utf8Len a - 1, by omega⟩
    rw [List.cons_append, utf8Len_cons, hm, sliceTo, if_pos (by omega), ← hm, Nat.add_sub_cancel_left, ih,
      Option.map_some]

/-! ### The first place of a text -/

/-- A text that has its first character only once does not begin earlier than it stands. -/
theorem not_prefix_of_earlier (hd : d ∉ w) (hx : ¬ d :: w <:+: x) (hne : x ≠ []) :
    ¬ d :: w <+: x ++ (d :: w ++ y) := by
  intro h
  by_cases hlen : (d :: w).length ≤ x.length
  · exact hx (List.prefix_of_prefix_length_le h (List.prefix_append _ _) hlen).isInfix
  · have hpre : x <+: d :: w :=
      List.prefix_of_prefix_length_le (List.prefix_append _ _) h (Nat.le_of_lt (Nat.not_le.mp hlen))
    obtain ⟨z, hz⟩ := hpre
    rw [← hz, List.prefix_append_right_inj, hz] at h
    cases z with
    | nil =>
      rw [List.append_nil] at hz
      rw [hz] at hlen
      exact hlen (Nat.le_refl _)
    | cons e z =>
      have he : e = d := (List.cons_prefix_cons.mp h).1
      cases x with
      | nil => exact hne rfl
      | cons f x =>
        rw [List.cons_append, List.cons.injEq] at hz
        apply hd
        rw [← hz.2, he]
        exact List.mem_append_right _ List.mem_cons_self

theorem findBytes_of_prefix (h : w <+: s) : findBytes w s = some 0 := by
  cases s with
  | nil =>
    have hw : w = [] := List.prefix_nil.mp h
    rw [findBytes, hw]
    rfl
  | cons c s => rw [findBytes, if_pos (List.isPrefixOf_iff_prefix.mpr h)]

theorem findBytes_append (hd : d ∉ w) (hx : ¬ d :: w <:+: x) :
    findBytes (d :: w) (x ++ (d :: w ++ y)) = some (utf8Len x) := by
  induction x with
  | nil => exact findBytes_of_prefix (List.prefix_append _ _)
  | cons c x ih =>
    have hno := not_prefix_of_earlier (y := y) hd hx (List.cons_ne_nil c x)
    rw [List.cons_append] at hno ⊢
    rw [findBytes, if_neg (fun h => hno (List.isPrefixOf_iff_prefix.mp h)),
      ih fun h => hx (List.infix_cons h)]
    rfl

theorem exists_of_findBytes (hw : w ≠ []) (h : findBytes w s = some n) :
    ∃ x y, s = x ++ (w ++ y) ∧ utf8Len x = n ∧ ¬ w <:+: x := by
  induction s generalizing n with
  | nil =>
    rw [findBytes, if_neg (by simpa using hw)] at h
    cases h
  | cons c s ih =>
    rw [findBytes] at h
    by_cases hpre : w.isPrefixOf (c :: s) = true
    · rw [if_pos hpre] at h
      obtain ⟨y, hy⟩ := List.isPrefixOf_iff_prefix.mp hpre
      refine ⟨[], y, hy.symm, Option.some.inj h, ?_⟩
      rw [List.infix_nil]
      exact hw
    · rw [if_neg hpre] at h
      obtain ⟨m, hm, rfl⟩ := Option.map_eq_some_iff.mp h
      obtain ⟨x, y, rfl, hlen, hx⟩ := ih hm
      refine ⟨c :: x, y, rfl, by rw [utf8Len_cons, hlen], fun hinfix => ?_⟩
      rcases List.infix_cons_iff.mp hinfix with hp | hi
      · apply hpre
        rw [List.isPrefixOf_iff_prefix]
        exact hp.trans (List.prefix_append (c :: x) _)
      · exact hx hi

/-! ### Lower case -/

def unsigma (c : Char) : Char := if c = 'ς' then 'σ' else c

def Plain (c : Char) : Prop := c ≠ 'σ' ∧ c ≠ 'ς'

/-- `char::to_lowercase` and `str::to_lowercase` -/
structure Lowercase where
  char : Char → List Char
  text : List Char → List Char
  char_ne_nil : ∀ c, char c ≠ []
  char_ascii : ∀ c : Char, c.toNat < 0x80 → char c = [c.toLower]
  char_foreign : ∀ c : Char, 0x80 ≤ c.toNat → ∀ d ∈ char c, d.toNat < 0x80 →
    char c = ['i', '\u0307'] ∨ char c = ['k']
  /-- The sigma apart, a text is lowered character by character. -/
  text_eq : ∀ s, (text s).map unsigma = (s.flatMap char).map unsigma

theorem unsigma_eq_iff (hd : Plain d) : unsigma c = d ↔ c = d := by
  rw [unsigma]
  by_cases hc : c = 'ς'
  · rw [if_pos hc, hc]
    exact iff_of_false (fun h => hd.1 h.symm) fun h => hd.2 h.symm
  · rw [if_neg hc]

theorem isPrefixOf_map_unsigma (hw : ∀ d ∈ w, Plain d) (x : List Char) :
    w.isPrefixOf (x.map unsigma) = w.isPrefixOf x := by
  induction w generalizing x with
  | nil => rw [List.isPrefixOf_nil_left, List.isPrefixOf_nil_left]
  | cons d w ih =>
    cases x with
    | nil => rfl
    | cons c x =>
      have hd : (d == unsigma c) = (d == c) := by
        rw [Bool.eq_iff_iff, beq_iff_eq, beq_iff_eq, eq_comm, unsigma_eq_iff (hw d List.mem_cons_self), eq_comm]
      rw [List.map_cons, List.isPrefixOf_cons_cons, List.isPrefixOf_cons_cons, hd,
        ih (fun e he => hw e (List.mem_cons_of_mem d he))]

theorem isSuffixOf_map_unsigma (hw : ∀ d ∈ w, Plain d) (x : List Char) :
    w.isSuffixOf (x.map unsigma) = w.isSuffixOf x := by
  rw [List.isSuffixOf, List.isSuffixOf, ← List.map_reverse]
  exact isPrefixOf_map_unsigma (fun d hd => hw d (List.mem_reverse.mp hd)) x.reverse

theorem utf8Size_unsigma (c : Char) : (unsigma c).utf8Size = c.utf8Size := by
  rw [unsigma]
  by_cases hc : c = 'ς'
  · rw [if_pos hc, hc]
    decide
  · rw [if_neg hc]

theorem findBytes_map_unsigma (hw : ∀ d ∈ w, Plain d) (x : List Char) :
    findBytes w (x.map unsigma) = findBytes w x := by
  induction x with
  | nil => rfl
  | cons c x ih =>
    have hpre := isPrefixOf_map_unsigma hw (c :: x)
    rw [List.map_cons] at hpre ⊢
    rw [findBytes, findBytes, hpre, ih, utf8Size_unsigma]

namespace Lowercase

variable (l : Lowercase)

/-- A text in lower case, with the sigma in one form. -/
def fold (s : List Char) : List Char := (s.flatMap l.char).map unsigma

@[simp] theorem fold_nil : l.fold [] = [] := rfl

theorem fold_append (a b : List Char) : l.fold (a ++ b) = l.fold a ++ l.fold b := by
  rw [fold, List.flatMap_append, List.map_append]
  rfl

theorem fold_cons (c : Char) (s : List Char) : l.fold (c :: s) = l.fold [c] ++ l.fold s :=
  l.fold_append [c] s

theorem fold_ne_nil (hs : s ≠ []) : l.fold s ≠ [] := by
  cases s with
  | nil => exact absurd rfl hs
  | cons c s =>
    intro h
    rw [fold, List.map_eq_nil_iff, List.flatMap_cons, List.append_eq_nil_iff] at h
    exact l.char_ne_nil c h.1

theorem isPrefixOf_text (hw : ∀ d ∈ w, Plain d) (s : List Char) :
    w.isPrefixOf (l.text s) = w.isPrefixOf (l.fold s) := by
  rw [← isPrefixOf_map_unsigma hw (l.text s), l.text_eq, fold]

theorem isSuffixOf_text (hw : ∀ d ∈ w, Plain d) (s : List Char) :
    w.isSuffixOf (l.text s) = w.isSuffixOf (l.fold s) := by
  rw [← isSuffixOf_map_unsigma hw (l.text s), l.text_eq, fold]

theorem findBytes_text (hw : ∀ d ∈ w, Plain d) (s : List Char) :
    findBytes w (l.text s) = findBytes w (l.fold s) := by
  rw [← findBytes_map_unsigma hw (l.text s), l.text_eq, fold]

theorem plain_of_ascii (hd : d.toNat < 0x80) : Plain d := by
  constructor
  · intro h
    rw [h] at hd
    exact absurd hd (by decide)
  · intro h
    rw [h] at hd
    exact absurd hd (by decide)

theorem fold_ascii (hc : c.toNat < 0x80) (hlower : c.toLower.toNat < 0x80) : l.fold [c] = [c.toLower] := by
  rw [fold, List.flatMap_singleton, l.char_ascii c hc, List.map_singleton,
    (unsigma_eq_iff (plain_of_ascii hlower)).mpr rfl]

theorem fold_eq_self (h : ∀ c ∈ s, c.toNat < 0x80 ∧ c.toLower = c) : l.fold s = s := by
  induction s with
  | nil => rfl
  | cons c s ih =>
    obtain ⟨hc, hlower⟩ := h c List.mem_cons_self
    rw [fold_cons, l.fold_ascii hc (by rw [hlower]; exact hc), hlower,
      ih fun d hd => h d (List.mem_cons_of_mem c hd), List.singleton_append]

theorem fold_infix (h : a <:+: s) : l.fold a <:+: l.fold s := by
  obtain ⟨x, y, rfl⟩ := h
  rw [fold_append, fold_append]
  exact ⟨l.fold x, l.fold y, rfl⟩

/-- Only one character can become this one, and it becomes nothing else. -/
def Alone (d : Char) : Prop := ∀ c, d ∈ l.fold [c] → l.fold [c] = [d]

theorem mem_char_of_mem_fold (hd : Plain d) (h : d ∈ l.fold [c]) : d ∈ l.char c := by
  rw [fold, List.flatMap_singleton] at h
  obtain ⟨e, he, hed⟩ := List.mem_map.mp h
  rw [unsigma_eq_iff hd] at hed
  exact hed ▸ he

theorem alone_of_ascii (hd : d.toNat < 0x80) (hi : d ≠ 'i') : l.Alone d := by
  intro c hmem
  have hchar := l.mem_char_of_mem_fold (plain_of_ascii hd) hmem
  have hplain : unsigma d = d := (unsigma_eq_iff (plain_of_ascii hd)).mpr rfl
  have hone : l.char c = [d] := by
    by_cases hc : c.toNat < 0x80
    · rw [l.char_ascii c hc] at hchar ⊢
      rw [List.mem_singleton.mp hchar]
    · rcases l.char_foreign c (Nat.not_lt.mp hc) d hchar hd with h | h
      · rw [h, List.mem_cons, List.mem_singleton] at hchar
        rcases hchar with h | h
        · exact absurd h hi
        · rw [h] at hd
          exact absurd hd (by decide)
      · rw [h] at hchar ⊢
        rw [List.mem_singleton.mp hchar]
  rw [fold, List.flatMap_singleton, hone, List.map_singleton, hplain]

/-- The other letters come from letters of ASCII, which take one byte. -/
theorem utf8Size_of_fold (hd : d.toNat < 0x80) (hi : d ≠ 'i') (hk : d ≠ 'k') (h : l.fold [c] = [d]) :
    c.utf8Size = 1 := by
  have hchar : d ∈ l.char c := l.mem_char_of_mem_fold (plain_of_ascii hd) (by rw [h]; exact List.mem_cons_self)
  have hc : c.toNat < 0x80 := by
    by_contra hc
    rcases l.char_foreign c (Nat.not_lt.mp hc) d hchar hd with h | h
    · rw [h, List.mem_cons, List.mem_singleton] at hchar
      rcases hchar with h | h
      · exact hi h
      · rw [h] at hd
        exact absurd hd (by decide)
    · rw [h] at hchar
      exact hk (List.mem_singleton.mp hchar)
  rw [Char.utf8Size_eq_one_iff]
  have hval : c.val.toNat ≤ 127 := Nat.le_of_lt_succ hc
  exact hval

theorem split_one (hd : l.Alone d) (h : l.fold s = x ++ d :: y) :
    ∃ q c r, s = q ++ c :: r ∧ l.fold q = x ∧ l.fold [c] = [d] ∧ l.fold r = y := by
  induction s generalizing x with
  | nil => simp at h
  | cons c s ih =>
    rw [fold_cons] at h
    rcases List.append_eq_append_iff.mp h with ⟨z, hz, hrest⟩ | ⟨z, hz, hrest⟩
    · obtain ⟨q, e, r, rfl, hq, he, hr⟩ := ih hrest
      exact ⟨c :: q, e, r, rfl, by rw [fold_cons, hq, hz], he, hr⟩
    · cases z with
      | nil =>
        rw [List.append_nil] at hz
        obtain ⟨q, e, r, rfl, hq, he, hr⟩ := ih (x := []) hrest.symm
        exact ⟨c :: q, e, r, rfl, by rw [fold_cons, hq, List.append_nil, hz], he, hr⟩
      | cons e z =>
        rw [List.cons_append, List.cons.injEq] at hrest
        have hone : l.fold [c] = [d] := hd c (by rw [hz, ← hrest.1]; exact List.mem_append_right _ List.mem_cons_self)
        rw [hone] at hz
        have hx : x = [] ∧ z = [] := by
          have hlen := congrArg List.length hz
          simp only [List.length_append, List.length_cons, List.length_nil] at hlen
          exact ⟨List.length_eq_zero_iff.mp (by omega), List.length_eq_zero_iff.mp (by omega)⟩
        refine ⟨[], c, s, rfl, hx.1.symm, hone, ?_⟩
        rw [hrest.2, hx.2, List.nil_append]

theorem split_fold (hw : ∀ d ∈ w, l.Alone d) (hne : w ≠ []) (h : l.fold s = x ++ (w ++ y)) :
    ∃ q g r, s = q ++ (g ++ r) ∧ l.fold q = x ∧ l.fold g = w ∧ l.fold r = y := by
  induction w generalizing s x with
  | nil => exact absurd rfl hne
  | cons d w ih =>
    obtain ⟨q, c, r, rfl, hq, hc, hr⟩ := l.split_one (hw d List.mem_cons_self) h
    cases w with
    | nil => exact ⟨q, [c], r, rfl, hq, hc, hr⟩
    | cons e w =>
      obtain ⟨q', g, r', rfl, hq', hg, hr'⟩ :=
        ih (x := []) (fun f hf => hw f (List.mem_cons_of_mem d hf)) (List.cons_ne_nil e w) hr
      have hnil : q' = [] := by
        by_contra hne'
        exact l.fold_ne_nil hne' hq'
      subst hnil
      exact ⟨q, c :: g, r', rfl, hq, by rw [fold_cons, hc, hg]; rfl, hr'⟩

theorem length_char_of_ascii (h : ∀ d ∈ l.fold [c], d.toNat < 0x80) : (l.fold [c]).length = 1 := by
  rw [fold, List.flatMap_singleton] at h ⊢
  by_cases hc : c.toNat < 0x80
  · rw [l.char_ascii c hc]
    rfl
  · obtain ⟨d, hd⟩ := List.exists_mem_of_ne_nil _ (l.char_ne_nil c)
    have hsmall : d.toNat < 0x80 := by
      by_contra hbig
      have hmem := h (unsigma d) (List.mem_map_of_mem hd)
      by_cases hsigma : d = 'ς'
      · rw [unsigma, if_pos hsigma] at hmem
        exact absurd hmem (by decide)
      · rw [unsigma, if_neg hsigma] at hmem
        exact hbig hmem
    rcases l.char_foreign c (Nat.not_lt.mp hc) d hd hsmall with hchar | hchar
    · rw [hchar] at h
      exact absurd (h '\u0307' (by decide)) (by decide)
    · rw [hchar]
      rfl

theorem length_of_fold_ascii (h : ∀ d ∈ l.fold s, d.toNat < 0x80) : s.length = (l.fold s).length := by
  induction s with
  | nil => rfl
  | cons c s ih =>
    rw [fold_cons] at h ⊢
    rw [List.length_cons, List.length_append, l.length_char_of_ascii fun d hd => h d (List.mem_append_left _ hd),
      ← ih fun d hd => h d (List.mem_append_right _ hd), Nat.add_comm]

/-- Without an `i` and a `k` it also has as many bytes as it has characters. -/
theorem utf8Len_of_fold (h : ∀ d ∈ l.fold s, d.toNat < 0x80 ∧ d ≠ 'i' ∧ d ≠ 'k') :
    utf8Len s = (l.fold s).length := by
  induction s with
  | nil => rfl
  | cons c s ih =>
    rw [fold_cons] at h ⊢
    have hone := l.length_char_of_ascii fun d hd => (h d (List.mem_append_left _ hd)).1
    obtain ⟨d, hd⟩ := List.length_eq_one_iff.mp hone
    obtain ⟨hascii, hi, hk⟩ := h d (List.mem_append_left _ (by rw [hd]; exact List.mem_cons_self))
    rw [utf8Len_cons, List.length_append, hone, l.utf8Size_of_fold hascii hi hk hd,
      ih fun e he => h e (List.mem_append_right _ he)]

end Lowercase

end LowerCase
