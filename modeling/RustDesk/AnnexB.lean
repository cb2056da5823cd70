import RustDesk.ParamSets
import Mathlib.Data.List.Infix

/-!
# Streams of NAL units

An encoder writes its units one behind the other, each behind a start code of three or four
bytes. A unit contains no start code and does not end with a zero, so the starts that the scan
finds are those of the units, and the parameter sets come out as they were written. On other
bytes the scan still cuts the input into pieces that lie side by side.
-/

namespace RustDesk.Goke

inductive StartCode
  | short
  | long
  deriving DecidableEq, Repr

def StartCode.bytes : StartCode → Bytes
  | .short => [0, 0, 1]
  | .long => [0, 0, 0, 1]

/-- A unit with the start code in front of it. -/
structure NalUnit where
  code : StartCode
  nal : Bytes
  no_start_code : ¬[0, 0, 1] <:+: nal
  no_trailing_zero : nal.getLast? ≠ some 0

namespace NalUnit

def bytes (u : NalUnit) : Bytes := u.code.bytes ++ u.nal

/-- The `nal_unit_type` of the first byte. -/
def kind (u : NalUnit) (hevc : Bool) : Nat :=
  let first := (u.nal.headD 0).toNat
  if hevc then first / 2 % 64 else first % 32

/-- VPS, SPS and PPS of HEVC, or SPS and PPS of AVC. -/
def IsParameterSet (u : NalUnit) (hevc : Bool) : Prop :=
  if hevc then u.kind hevc = 32 ∨ u.kind hevc = 33 ∨ u.kind hevc = 34
  else u.kind hevc = 7 ∨ u.kind hevc = 8

instance (u : NalUnit) (hevc : Bool) : Decidable (u.IsParameterSet hevc) :=
  inferInstanceAs (Decidable (if hevc then _ else _))

end NalUnit

def stream (units : List NalUnit) : Bytes := units.flatMap NalUnit.bytes

/-- Where the start codes of a stream are that begins at `i`. -/
def unitStarts : Nat → List NalUnit → List Nat
  | _, [] => []
  | i, u :: units => i :: unitStarts (i + u.bytes.length) units

variable {data rest nal : Bytes} {hevc : Bool} {i : Nat}

/-! ### The scan of one unit -/

theorem startsFrom_code (i : Nat) (code : StartCode) (rest : Bytes) :
    startsFrom i (code.bytes ++ rest) = i :: startsFrom (i + code.bytes.length) rest := by
  cases code with
  | short =>
    change startsFrom i (0 :: 0 :: 1 :: rest) = _
    rw [startsFrom.eq_def]
    rfl
  | long =>
    change startsFrom i (0 :: 0 :: 0 :: 1 :: rest) = _
    rw [startsFrom.eq_def]
    rfl

theorem startsFrom_skip {a : UInt8} (h : ∀ code : StartCode, ¬code.bytes <+: a :: rest) :
    startsFrom i (a :: rest) = startsFrom (i + 1) rest := by
  match rest with
  | [] => simp [startsFrom]
  | [b] => simp [startsFrom]
  | b :: c :: rest =>
    rw [startsFrom.eq_def]
    dsimp only
    by_cases hzero : a = 0 ∧ b = 0
    · obtain ⟨rfl, rfl⟩ := hzero
      have hc : c ≠ 1 := by
        rintro rfl
        exact h .short (List.prefix_append [0, 0, 1] _)
      rw [if_pos ⟨rfl, rfl⟩, if_neg hc]
      cases rest with
      | nil => rfl
      | cons d rest =>
        have hd : ¬(c = 0 ∧ d = 1) := by
          rintro ⟨rfl, rfl⟩
          exact h .long (List.prefix_append [0, 0, 0, 1] _)
        exact if_neg hd
    · exact if_neg hzero

theorem StartCode.bytes_eq (code : StartCode) :
    ∃ n, code.bytes = List.replicate n 0 ++ [1] ∧ [0, 0, 1] <:+ code.bytes := by
  cases code with
  | short => exact ⟨2, rfl, List.suffix_refl _⟩
  | long => exact ⟨3, rfl, List.suffix_cons 0 _⟩

/-- No start code begins within a unit, not even one that would end behind it. -/
theorem code_not_prefix {a : UInt8} (hcode : ¬[0, 0, 1] <:+: a :: nal)
    (hlast : (a :: nal).getLast? ≠ some 0) (rest : Bytes) (code : StartCode) :
    ¬code.bytes <+: a :: nal ++ rest := by
  intro hprefix
  obtain ⟨n, hbytes, hsuffix⟩ := code.bytes_eq
  rcases List.prefix_or_prefix_of_prefix hprefix (List.prefix_append (a :: nal) rest) with h | h
  · exact hcode (hsuffix.isInfix.trans h.isInfix)
  · rw [hbytes, List.prefix_concat_iff, ← hbytes] at h
    rcases h with h | h
    · exact hcode (h ▸ hsuffix.isInfix)
    · -- the unit is a part of the zeros of the code
      have hzero : (a :: nal).getLast (by simp) = 0 :=
        List.eq_of_mem_replicate (h.subset (List.getLast_mem _))
      exact hlast (by rw [List.getLast?_eq_some_getLast (by simp), hzero])

theorem startsFrom_nal (hcode : ¬[0, 0, 1] <:+: nal) (hlast : nal.getLast? ≠ some 0) (rest : Bytes) :
    startsFrom i (nal ++ rest) = startsFrom (i + nal.length) rest := by
  induction nal generalizing i with
  | nil => rfl
  | cons a nal ih =>
    have hcode' : ¬[0, 0, 1] <:+: nal := fun h => hcode (h.trans (List.suffix_cons a nal).isInfix)
    have hlast' : nal.getLast? ≠ some 0 := by
      cases nal with
      | nil => exact nofun
      | cons b nal => rwa [List.getLast?_cons_cons] at hlast
    have hskip : ∀ code : StartCode, ¬code.bytes <+: a :: (nal ++ rest) :=
      code_not_prefix hcode hlast rest
    rw [List.cons_append, startsFrom_skip hskip, ih hcode' hlast', List.length_cons]
    congr 1
    omega

/-- The scan finds where the units begin. -/
theorem startsFrom_stream (i : Nat) (units : List NalUnit) :
    startsFrom i (stream units) = unitStarts i units := by
  induction units generalizing i with
  | nil => simp [stream, startsFrom, unitStarts]
  | cons u units ih =>
    have hunit : stream (u :: units) = u.code.bytes ++ (u.nal ++ stream units) := by
      rw [stream, List.flatMap_cons, NalUnit.bytes, List.append_assoc]
      rfl
    rw [hunit, startsFrom_code, startsFrom_nal u.no_start_code u.no_trailing_zero, ih, unitStarts,
      NalUnit.bytes, List.length_append, Nat.add_assoc]

/-! ### The pieces -/

theorem toNat_kind_hevc (b : UInt8) : ((b &&& 0x7E) >>> 1).toNat = b.toNat / 2 % 64 := by
  have h : ∀ n < 256, (n &&& 126) >>> 1 = n / 2 % 64 := by decide +kernel
  have hb := h b.toNat b.toNat_lt
  simpa using hb

theorem toNat_kind_avc (b : UInt8) : (b &&& 0x1F).toNat = b.toNat % 32 := by
  have h : ∀ n < 256, n &&& 31 = n % 32 := by decide +kernel
  have hb := h b.toNat b.toNat_lt
  simpa using hb

theorem isParamNal_iff (u : NalUnit) (hevc : Bool) :
    isParamNal u.nal hevc = true ↔ 2 ≤ u.nal.length ∧ u.IsParameterSet hevc := by
  unfold isParamNal NalUnit.IsParameterSet NalUnit.kind
  by_cases hlen : u.nal.length < 2
  · rw [if_pos hlen]
    constructor
    · exact nofun
    · intro h
      omega
  · rw [if_neg hlen, and_iff_right (by omega)]
    cases hevc with
    | true => simp [← UInt8.toNat_inj, toNat_kind_hevc, or_assoc, -UInt8.toNat_shiftRight, -UInt8.toNat_and]
    | false => simp [← UInt8.toNat_inj, toNat_kind_avc, -UInt8.toNat_and]

theorem slice_middle (a b c : Bytes) :
    slice (a ++ b ++ c) a.length (a.length + b.length) = some b := by
  have hend : a.length + b.length = (a ++ b).length := List.length_append.symm
  have hle : (a ++ b).length ≤ (a ++ b ++ c).length := (List.prefix_append (a ++ b) c).length_le
  rw [slice_of_le (Nat.le_add_right _ _) (hend ▸ hle), hend, List.take_left, List.drop_left]

/-- The start codes of the later units begin where this one ends. -/
theorem headD_unitStarts (front : Bytes) (units : List NalUnit) :
    (unitStarts front.length units).headD (front ++ stream units).length = front.length := by
  cases units with
  | nil => simp [unitStarts, stream]
  | cons u units => rfl

theorem header_unit (front : Bytes) (u : NalUnit) (rest : Bytes) :
    ∃ third, (front ++ u.bytes ++ rest)[front.length + 2]? = some third ∧
      (if third = 1 then 3 else 4) = u.code.bytes.length := by
  have hget : (front ++ u.bytes ++ rest)[front.length + 2]? = u.code.bytes[2]? := by
    rw [List.append_assoc, List.getElem?_append_right (Nat.le_add_right _ _), Nat.add_sub_cancel_left,
      NalUnit.bytes, List.append_assoc]
    cases u.code with
    | short => rfl
    | long => rfl
  rw [hget]
  cases u.code with
  | short => exact ⟨1, rfl, rfl⟩
  | long => exact ⟨0, rfl, rfl⟩

theorem paramsFrom_stream (hevc : Bool) (front : Bytes) (units : List NalUnit)
    (hlong : ∀ u ∈ units, u.IsParameterSet hevc → 2 ≤ u.nal.length) :
    paramsFrom (front ++ stream units) hevc (unitStarts front.length units) =
      some (stream (units.filter fun u => u.IsParameterSet hevc)) := by
  induction units generalizing front with
  | nil => rfl
  | cons u units ih =>
    obtain ⟨hu, hunits⟩ := List.forall_mem_cons.mp hlong
    have hdata : front ++ stream (u :: units) = front ++ u.bytes ++ stream units := by
      rw [stream, List.flatMap_cons, ← List.append_assoc]
      rfl
    have hlength : front.length + u.bytes.length = (front ++ u.bytes).length :=
      List.length_append.symm
    obtain ⟨third, hthird, hhdr⟩ := header_unit front u (stream units)
    have hnal : slice (front ++ u.bytes ++ stream units) (front.length + u.code.bytes.length)
        (front.length + u.bytes.length) = some u.nal := by
      have hbytes : front ++ u.code.bytes ++ u.nal = front ++ u.bytes := List.append_assoc _ _ _
      have hbegin : (front ++ u.code.bytes).length = front.length + u.code.bytes.length :=
        List.length_append
      have hend : (front ++ u.code.bytes).length + u.nal.length = front.length + u.bytes.length := by
        rw [← List.length_append, hbytes, List.length_append]
      rw [← hbytes, ← hend, ← hbegin]
      exact slice_middle _ _ _
    rw [hdata, unitStarts, paramsFrom, hlength, headD_unitStarts, ← hlength, hthird]
    simp only [Option.bind_eq_bind, Option.bind_some, hhdr, hnal, slice_middle]
    rw [hlength, ih (front ++ u.bytes) hunits]
    by_cases hset : u.IsParameterSet hevc
    · have hparam : isParamNal u.nal hevc = true := (isParamNal_iff u hevc).mpr ⟨hu hset, hset⟩
      rw [if_pos hparam, List.filter_cons_of_pos (by simpa using hset)]
      rfl
    · have hparam : ¬isParamNal u.nal hevc = true := fun h => hset ((isParamNal_iff u hevc).mp h).2
      rw [if_neg hparam, List.filter_cons_of_neg (by simpa using hset)]
      rfl

/-! ### Any bytes -/

/-- Ranges that lie side by side in `n` bytes. -/
def SideBySide (n : Nat) (ranges : List (Nat × Nat)) : Prop :=
  ranges.Pairwise (fun a b => a.2 ≤ b.1) ∧ ∀ a ∈ ranges, a.1 ≤ a.2 ∧ a.2 ≤ n

def slices (data : Bytes) (ranges : List (Nat × Nat)) : Bytes :=
  ranges.flatMap fun a => (data.take a.2).drop a.1

theorem paramsFrom_slices {starts : List Nat} (hcut : Cut data starts) (hevc : Bool) :
    ∃ ranges, paramsFrom data hevc starts = some (slices data ranges) ∧
      SideBySide data.length ranges ∧ ∀ a ∈ ranges, starts.headD data.length ≤ a.1 := by
  induction starts with
  | nil => exact ⟨[], rfl, ⟨List.Pairwise.nil, nofun⟩, nofun⟩
  | cons s starts ih =>
    obtain ⟨⟨third, hthird, hhdr⟩, hend, hrest⟩ := hcut
    obtain ⟨ranges, hranges, ⟨hapart, hin⟩, hbehind⟩ := ih hrest
    have hstart : s ≤ starts.headD data.length := (Nat.le_add_right _ _).trans hhdr
    simp only [paramsFrom, hthird, slice_of_le hhdr hend, slice_of_le hstart hend, hranges,
      Option.bind_eq_bind, Option.bind_some, List.headD_cons]
    generalize (if third = 1 then 3 else 4) = hdr
    split_ifs
    · refine ⟨(s, starts.headD data.length) :: ranges, rfl,
        ⟨List.pairwise_cons.mpr ⟨hbehind, hapart⟩, ?_⟩, ?_⟩
      · exact List.forall_mem_cons.mpr ⟨⟨hstart, hend⟩, hin⟩
      · exact List.forall_mem_cons.mpr ⟨le_refl s, fun a ha => hstart.trans (hbehind a ha)⟩
    · exact ⟨ranges, rfl, ⟨hapart, hin⟩, fun a ha => hstart.trans (hbehind a ha)⟩

/-- The parameter sets of a stream of units come out with their start codes, in order. Of any other
bytes, pieces that lie side by side come out, and no index or range is out of bounds. -/
theorem extract_param_sets (hevc : Bool) :
    (∀ units : List NalUnit, (∀ u ∈ units, u.IsParameterSet hevc → 2 ≤ u.nal.length) →
      let sets := units.filter fun u => u.IsParameterSet hevc
      extractParamSets (stream units) hevc =
        some (if sets = [] then none else some (stream sets))) ∧
    ∀ data, ∃ ranges, SideBySide data.length ranges ∧
      extractParamSets data hevc =
        some (if slices data ranges = [] then none else some (slices data ranges)) := by
  constructor
  · intro units hlong sets
    have hparams := paramsFrom_stream hevc [] units hlong
    have hempty : stream sets = [] ↔ sets = [] := by
      constructor
      · intro h
        cases hs : sets with
        | nil => rfl
        | cons u sets' =>
          rw [hs, stream, List.flatMap_cons, List.append_eq_nil_iff] at h
          cases u with
          | mk code => cases code <;> cases h.1
      · intro h
        rw [h]
        rfl
    unfold extractParamSets
    dsimp only
    rw [startsFrom_stream]
    cases hunits : unitStarts 0 units with
    | nil =>
      cases units with
      | nil => rfl
      | cons u units => cases hunits
    | cons i starts =>
      rw [← hunits, if_neg (by simp [hunits])]
      rw [List.nil_append, List.length_nil] at hparams
      rw [hparams, Option.map_some]
      simp only [List.isEmpty_iff, hempty, sets]
  · intro data
    obtain ⟨hcut, -, -⟩ := cut_startsFrom data (Nat.zero_le data.length) List.drop_zero
    obtain ⟨ranges, hranges, hside, -⟩ := paramsFrom_slices hcut hevc
    unfold extractParamSets
    dsimp only
    split_ifs with hstarts
    · exact ⟨[], ⟨List.Pairwise.nil, nofun⟩, rfl⟩
    · refine ⟨ranges, hside, ?_⟩
      rw [hranges, Option.map_some]
      simp only [List.isEmpty_iff]

/-- A sequence parameter set, and the slice of a picture with a zero in it. -/
def spsUnit : NalUnit := ⟨.long, [0x67, 0x42], by decide, by decide⟩

def sliceUnit : NalUnit := ⟨.short, [0x65, 0x00, 0x88], by decide, by decide⟩

theorem extract_param_sets_avc :
    extractParamSets (stream [sliceUnit, spsUnit, sliceUnit]) false = some (some [0, 0, 0, 1, 0x67, 0x42]) :=
  (extract_param_sets false).1 [sliceUnit, spsUnit, sliceUnit] (by decide)

end RustDesk.Goke
