import Mathlib.Data.List.Basic

/-!
# Base64 with padding

The standard alphabet over bytes. Three bytes are four digits of six bits; the last group
is filled up with `=`. Decoding is strict: the padding has to be there, and the bits that a
shorter last group leaves over have to be zero.
-/

namespace Base64

/-- `=` -/
def pad : UInt8 := 61

/-- The byte of a digit below 64. -/
def digit (v : Nat) : UInt8 :=
  if v < 26 then UInt8.ofNat (65 + v)
  else if v < 52 then UInt8.ofNat (97 + (v - 26))
  else if v < 62 then UInt8.ofNat (48 + (v - 52))
  else if v = 62 then 43
  else 47

def value (c : UInt8) : Option Nat :=
  if 65 ≤ c ∧ c ≤ 90 then some (c.toNat - 65)
  else if 97 ≤ c ∧ c ≤ 122 then some (c.toNat - 97 + 26)
  else if 48 ≤ c ∧ c ≤ 57 then some (c.toNat - 48 + 52)
  else if c = 43 then some 62
  else if c = 47 then some 63
  else none

def encode : List UInt8 → List UInt8
  | [] => []
  | [a] => [digit (a.toNat / 4), digit (a.toNat % 4 * 16), pad, pad]
  | [a, b] =>
    [digit (a.toNat / 4), digit (a.toNat % 4 * 16 + b.toNat / 16), digit (b.toNat % 16 * 4), pad]
  | a :: b :: c :: rest =>
    digit (a.toNat / 4) :: digit (a.toNat % 4 * 16 + b.toNat / 16) ::
      digit (b.toNat % 16 * 4 + c.toNat / 64) :: digit (c.toNat % 64) :: encode rest

def decode : List UInt8 → Option (List UInt8)
  | [] => some []
  | a :: b :: c :: d :: rest =>
    match value a, value b with
    | some va, some vb =>
      let first := UInt8.ofNat (va * 4 + vb / 16)
      if c = pad then
        if d = pad ∧ rest = [] ∧ vb % 16 = 0 then some [first] else none
      else
        match value c with
        | none => none
        | some vc =>
          let second := UInt8.ofNat (vb % 16 * 16 + vc / 4)
          if d = pad then
            if rest = [] ∧ vc % 4 = 0 then some [first, second] else none
          else
            match value d, decode rest with
            | some vd, some bytes => some (first :: second :: UInt8.ofNat (vc % 4 * 64 + vd) :: bytes)
            | _, _ => none
    | _, _ => none
  | _ => none

theorem value_digit {v : Nat} (h : v < 64) : value (digit v) = some v := by
  revert v
  decide

theorem digit_ne_pad {v : Nat} (h : v < 64) : digit v ≠ pad := by
  revert v
  decide

theorem digit_lt {v : Nat} (h : v < 64) : digit v < 128 := by
  revert v
  decide

theorem ofNat_eq {a : UInt8} {n : Nat} (h : n = a.toNat) : UInt8.ofNat n = a := by
  rw [h]
  exact UInt8.ofNat_toNat

theorem decode_encode (bytes : List UInt8) : decode (encode bytes) = some bytes := by
  induction bytes using encode.induct with
  | case1 => rfl
  | case2 a =>
    have ha := a.toNat_lt
    have hfirst : UInt8.ofNat (a.toNat / 4 * 4 + a.toNat % 4 * 16 / 16) = a := ofNat_eq (by omega)
    simp only [encode, decode]
    rw [value_digit (by omega), value_digit (by omega)]
    dsimp only
    rw [if_pos trivial, if_pos ⟨trivial, trivial, by omega⟩, hfirst]
  | case3 a b =>
    have ha := a.toNat_lt
    have hb := b.toNat_lt
    have hfirst : UInt8.ofNat (a.toNat / 4 * 4 + (a.toNat % 4 * 16 + b.toNat / 16) / 16) = a :=
      ofNat_eq (by omega)
    have hsecond : UInt8.ofNat ((a.toNat % 4 * 16 + b.toNat / 16) % 16 * 16 +
        b.toNat % 16 * 4 / 4) = b := ofNat_eq (by omega)
    simp only [encode, decode]
    rw [value_digit (by omega), value_digit (by omega)]
    dsimp only
    rw [if_neg (digit_ne_pad (by omega)), value_digit (by omega)]
    dsimp only
    rw [if_pos trivial, if_pos ⟨trivial, by omega⟩, hfirst, hsecond]
  | case4 a b c rest ih =>
    have ha := a.toNat_lt
    have hb := b.toNat_lt
    have hc := c.toNat_lt
    have hfirst : UInt8.ofNat (a.toNat / 4 * 4 + (a.toNat % 4 * 16 + b.toNat / 16) / 16) = a :=
      ofNat_eq (by omega)
    have hsecond : UInt8.ofNat ((a.toNat % 4 * 16 + b.toNat / 16) % 16 * 16 +
        (b.toNat % 16 * 4 + c.toNat / 64) / 4) = b := ofNat_eq (by omega)
    have hthird : UInt8.ofNat ((b.toNat % 16 * 4 + c.toNat / 64) % 4 * 64 + c.toNat % 64) = c :=
      ofNat_eq (by omega)
    simp only [encode, decode]
    rw [value_digit (by omega), value_digit (by omega)]
    dsimp only
    rw [if_neg (digit_ne_pad (by omega)), value_digit (by omega)]
    dsimp only
    rw [if_neg (digit_ne_pad (by omega)), value_digit (by omega), ih]
    dsimp only
    rw [hfirst, hsecond, hthird]

theorem lt_of_mem_encode {bytes : List UInt8} {c : UInt8} (h : c ∈ encode bytes) : c < 128 := by
  have hpad : pad < 128 := by decide
  induction bytes using encode.induct with
  | case1 => cases h
  | case2 a =>
    have ha := a.toNat_lt
    simp only [encode, List.mem_cons, List.not_mem_nil, or_false] at h
    rcases h with rfl | rfl | rfl | rfl
    · exact digit_lt (by omega)
    · exact digit_lt (by omega)
    · exact hpad
    · exact hpad
  | case3 a b =>
    have ha := a.toNat_lt
    have hb := b.toNat_lt
    simp only [encode, List.mem_cons, List.not_mem_nil, or_false] at h
    rcases h with rfl | rfl | rfl | rfl
    · exact digit_lt (by omega)
    · exact digit_lt (by omega)
    · exact digit_lt (by omega)
    · exact hpad
  | case4 a b c rest ih =>
    have ha := a.toNat_lt
    have hb := b.toNat_lt
    have hc := c.toNat_lt
    simp only [encode, List.mem_cons] at h
    rcases h with rfl | rfl | rfl | rfl | h
    · exact digit_lt (by omega)
    · exact digit_lt (by omega)
    · exact digit_lt (by omega)
    · exact digit_lt (by omega)
    · exact ih h

theorem length_encode (bytes : List UInt8) : (encode bytes).length = (bytes.length + 2) / 3 * 4 := by
  induction bytes using encode.induct with
  | case1 => rfl
  | case2 a => simp [encode]
  | case3 a b => simp [encode]
  | case4 a b c rest ih =>
    simp only [encode, List.length_cons, ih]
    omega

theorem lt_of_value {c : UInt8} {v : Nat} (h : value c = some v) : c < 128 := by
  rw [UInt8.lt_iff_toNat_lt]
  change c.toNat < 128
  unfold value at h
  split_ifs at h with h1 h2 h3 h4 h5
  · have hc : c.toNat ≤ 90 := UInt8.le_iff_toNat_le.mp h1.2
    omega
  · have hc : c.toNat ≤ 122 := UInt8.le_iff_toNat_le.mp h2.2
    omega
  · have hc : c.toNat ≤ 57 := UInt8.le_iff_toNat_le.mp h3.2
    omega
  · rw [h4]
    decide
  · rw [h5]
    decide

/-- What decodes is of the alphabet in groups of four, and there are no more bytes than digits. -/
theorem decode_spec {text bytes : List UInt8} (h : decode text = some bytes) :
    4 ∣ text.length ∧ bytes.length ≤ text.length ∧ ∀ c ∈ text, c = pad ∨ (value c).isSome := by
  fun_induction decode text generalizing bytes with
  | case1 =>
    cases h
    simp
  | case2 =>
    rename_i hb ha _ hend
    obtain ⟨rfl, rfl, -⟩ := hend
    cases h
    simp [ha, hb]
  | case5 =>
    rename_i hb ha _ _ _ hc _ hend
    obtain ⟨rfl, -⟩ := hend
    cases h
    simp [ha, hb, hc]
  | case7 =>
    rename_i hb ha _ _ _ hc _ _ _ _ hrest hd ih
    obtain ⟨hdvd, hlen, hmem⟩ := ih hrest
    cases h
    refine ⟨?_, ?_, ?_⟩
    · simp only [List.length_cons]
      omega
    · simp only [List.length_cons]
      omega
    · simpa [ha, hb, hc, hd] using hmem
  | case3 | case4 | case6 | case8 | case9 | case10 => cases h

theorem lt_of_mem_of_decode {text bytes : List UInt8} {c : UInt8} (h : decode text = some bytes)
    (hc : c ∈ text) : c < 128 := by
  rcases (decode_spec h).2.2 c hc with rfl | hv
  · decide
  · obtain ⟨v, hv⟩ := Option.isSome_iff_exists.mp hv
    exact lt_of_value hv

theorem dot_notMem_encode (bytes : List UInt8) : 46 ∉ encode bytes := by
  intro h
  rcases (decode_spec (decode_encode bytes)).2.2 46 h with h | h
  · exact absurd h (by decide)
  · exact absurd h (by decide)

theorem eq_of_digit_eq_slash {v : Nat} (h : v < 64) (hd : digit v = 47) : v = 63 := by
  revert v
  decide

theorem getLast_of_slashes {bytes front : List UInt8} (h : encode bytes = front ++ [47, 47]) :
    bytes.getLast? = some 255 := by
  induction bytes using encode.induct generalizing front with
  | case1 => simp [encode] at h
  | case2 a =>
    have hlast := congrArg List.getLast? h
    simp [encode, pad] at hlast
  | case3 a b =>
    have hlast := congrArg List.getLast? h
    simp [encode, pad] at hlast
  | case4 a b c rest ih =>
    have hb := b.toNat_lt
    have hc := c.toNat_lt
    simp only [encode] at h
    rcases front with _ | ⟨f1, _ | ⟨f2, _ | ⟨f3, _ | ⟨f4, front⟩⟩⟩⟩
    · simp at h
    · simp at h
    · -- the slashes are the last two digits of this group
      simp only [List.cons_append, List.nil_append, List.cons.injEq] at h
      obtain ⟨-, -, h3, h4, hrest⟩ := h
      have hv3 := eq_of_digit_eq_slash (by omega) h3
      have hv4 := eq_of_digit_eq_slash (by omega) h4
      have hr : rest = [] := by
        have hlen := length_encode rest
        rw [hrest, List.length_nil] at hlen
        exact List.eq_nil_of_length_eq_zero (by omega)
      have h255 : c = 255 := by
        rw [← UInt8.toNat_inj]
        change c.toNat = 255
        omega
      simp [hr, h255]
    · simp only [List.cons_append, List.nil_append, List.cons.injEq] at h
      obtain ⟨-, -, -, -, hrest⟩ := h
      have hlen := length_encode rest
      rw [hrest] at hlen
      simp at hlen
      omega
    · simp only [List.cons_append, List.cons.injEq] at h
      have hr := ih h.2.2.2.2
      rcases rest with _ | ⟨r, rest⟩
      · simp at hr
      · rw [List.getLast?_cons_cons, List.getLast?_cons_cons, List.getLast?_cons_cons]
        exact hr

end Base64
