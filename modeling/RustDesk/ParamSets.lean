import RustDesk.BytesCodec

/-!
# The parameter sets of an access unit

An Annex-B access unit is cut at its start codes. `extract_param_sets` keeps the pieces that are
parameter sets, with their start codes as they are. An index or a range that is out of bounds
is a panic, here `none`.
-/

namespace RustDesk.Goke

/-- `&data[s..e]` -/
def slice (data : Bytes) (s e : Nat) : Option Bytes :=
  if s ≤ e ∧ e ≤ data.length then some ((data.take e).drop s) else none

def isParamNal (nal : Bytes) (hevc : Bool) : Bool :=
  if nal.length < 2 then false
  else
    let first := nal.headD 0
    if hevc then
      let kind := (first &&& 0x7E) >>> 1
      kind == 32 || kind == 33 || kind == 34
    else
      let kind := first &&& 0x1F
      kind == 7 || kind == 8

/-- The loop over `i`; the bytes are those from `i` on. -/
def startsFrom : Nat → Bytes → List Nat
  | i, a :: b :: c :: rest =>
    if a = 0 ∧ b = 0 then
      if c = 1 then i :: startsFrom (i + 3) rest
      else
        match rest with
        | d :: rest' =>
          if c = 0 ∧ d = 1 then i :: startsFrom (i + 4) rest'
          else startsFrom (i + 1) (b :: c :: d :: rest')
        | [] => startsFrom (i + 1) [b, c]
    else startsFrom (i + 1) (b :: c :: rest)
  | _, _ => []

/-- The loop over the pieces. -/
def paramsFrom (data : Bytes) (hevc : Bool) : List Nat → Option Bytes
  | [] => some []
  | s :: starts => do
    let e := starts.headD data.length
    let third ← data[s + 2]?
    let hdr := if third = 1 then 3 else 4
    let nal ← slice data (s + hdr) e
    let piece ← if isParamNal nal hevc then slice data s e else some []
    let csd ← paramsFrom data hevc starts
    return piece ++ csd

def extractParamSets (data : Bytes) (hevc : Bool) : Option (Option Bytes) :=
  let starts := startsFrom 0 data
  if starts.isEmpty then some none
  else (paramsFrom data hevc starts).map fun csd => if csd.isEmpty then none else some csd

/-! ### Every range is within the unit -/

variable {data : Bytes} {hevc : Bool} {s e i : Nat} {starts : List Nat}

theorem slice_of_le (hs : s ≤ e) (he : e ≤ data.length) :
    slice data s e = some ((data.take e).drop s) := if_pos ⟨hs, he⟩

/-- Each start code lies before the next one, or before the end. -/
def Cut (data : Bytes) : List Nat → Prop
  | [] => True
  | s :: starts =>
    (∃ third, data[s + 2]? = some third ∧
      s + (if third = 1 then 3 else 4) ≤ starts.headD data.length) ∧
      starts.headD data.length ≤ data.length ∧ Cut data starts

theorem drop_part (part : Bytes) {rest : Bytes} (hle : i ≤ data.length)
    (h : data.drop i = part ++ rest) :
    i + part.length ≤ data.length ∧ data.drop (i + part.length) = rest := by
  have hlength : data.length - i = part.length + rest.length := by
    rw [← List.length_drop, h, List.length_append]
  refine ⟨by omega, ?_⟩
  rw [← List.drop_drop, h, List.drop_left]

theorem getElem?_of_drop {rest : Bytes} (h : data.drop i = rest) (n : Nat) : data[i + n]? = rest[n]? := by
  rw [← h, List.getElem?_drop]

theorem cut_startsFrom (rest : Bytes) (hle : i ≤ data.length) (hrest : data.drop i = rest) :
    Cut data (startsFrom i rest) ∧ i ≤ (startsFrom i rest).headD data.length ∧
      (startsFrom i rest).headD data.length ≤ data.length := by
  fun_induction startsFrom i rest with
  | case1 i a b rest hzero ih =>
    obtain ⟨hnext, hnext'⟩ := drop_part [a, b, 1] hle hrest
    obtain ⟨hcut, hlow, hhigh⟩ := ih hnext hnext'
    exact ⟨⟨⟨1, getElem?_of_drop hrest 2, hlow⟩, hhigh, hcut⟩, le_refl i, hle⟩
  | case2 i a b c hzero hthree d rest hfour ih =>
    obtain ⟨hnext, hnext'⟩ := drop_part [a, b, c, d] hle hrest
    obtain ⟨hcut, hlow, hhigh⟩ := ih hnext hnext'
    refine ⟨⟨⟨c, getElem?_of_drop hrest 2, ?_⟩, hhigh, hcut⟩, le_refl i, hle⟩
    rw [if_neg hthree]
    exact hlow
  | case3 i a b c hzero hthree d rest hfour ih =>
    obtain ⟨hnext, hnext'⟩ := drop_part [a] hle hrest
    obtain ⟨hcut, hlow, hhigh⟩ := ih hnext hnext'
    exact ⟨hcut, Nat.le_of_succ_le hlow, hhigh⟩
  | case4 i a b c hzero hthree ih =>
    obtain ⟨hnext, hnext'⟩ := drop_part [a] hle hrest
    obtain ⟨hcut, hlow, hhigh⟩ := ih hnext hnext'
    exact ⟨hcut, Nat.le_of_succ_le hlow, hhigh⟩
  | case5 i a b c rest hzero ih =>
    obtain ⟨hnext, hnext'⟩ := drop_part [a] hle hrest
    obtain ⟨hcut, hlow, hhigh⟩ := ih hnext hnext'
    exact ⟨hcut, Nat.le_of_succ_le hlow, hhigh⟩
  | case6 i rest hshort => exact ⟨trivial, hle, le_refl _⟩

theorem paramsFrom_some (hcut : Cut data starts) (hevc : Bool) :
    ∃ csd, paramsFrom data hevc starts = some csd ∧
      csd.length + starts.headD data.length ≤ data.length := by
  induction starts with
  | nil => exact ⟨[], rfl, Nat.le_of_eq (Nat.zero_add _)⟩
  | cons s starts ih =>
    obtain ⟨⟨third, hthird, hhdr⟩, hend, hrest⟩ := hcut
    obtain ⟨csd, hcsd, hlength⟩ := ih hrest
    have hstart : s ≤ starts.headD data.length := (Nat.le_add_right _ _).trans hhdr
    simp only [paramsFrom, hthird, slice_of_le hhdr hend, slice_of_le hstart hend, hcsd,
      Option.bind_eq_bind, Option.bind_some, List.headD_cons]
    generalize (if third = 1 then 3 else 4) = hdr
    split_ifs
    · refine ⟨_, rfl, ?_⟩
      rw [List.length_append, List.length_drop, List.length_take, min_eq_left hend]
      omega
    · refine ⟨_, rfl, ?_⟩
      rw [List.nil_append]
      omega

/-- Nothing panics, and the parameter sets are no longer than the unit. -/
theorem extractParamSets_some (data : Bytes) (hevc : Bool) :
    ∃ r, extractParamSets data hevc = some r ∧
      ∀ csd ∈ r, csd ≠ [] ∧ csd.length ≤ data.length := by
  obtain ⟨hcut, -, -⟩ := cut_startsFrom data (Nat.zero_le data.length) List.drop_zero
  obtain ⟨csd, hcsd, hlength⟩ := paramsFrom_some hcut hevc
  unfold extractParamSets
  by_cases hstarts : (startsFrom 0 data).isEmpty
  · simp only [hstarts, if_true]
    exact ⟨none, rfl, nofun⟩
  · simp only [hstarts, hcsd, Bool.false_eq_true, if_false, Option.map_some]
    refine ⟨_, rfl, ?_⟩
    intro csd' hcsd'
    split_ifs at hcsd' with hempty
    · exact absurd hcsd' nofun
    · cases hcsd'
      refine ⟨by simpa using hempty, ?_⟩
      omega

end RustDesk.Goke
