import Mathlib.Data.List.Basic

/-!
# Options in three layers

An option is looked up in the settings that overwrite it, then in the options of the user,
then in the defaults. The user's options are the only ones that are stored: a key that is
overwritten and a value that equals the default are left out. Options are read and written
one by one, or all of them as one map.
-/

namespace RustDesk

abbrev Options := Std.ExtHashMap String String

/-- The global maps, and the options of `Config2` in memory and in its file. -/
structure LayeredOptions where
  overwrite : Options := ∅
  defaults : Options := ∅
  options : Options := ∅
  file : Options := ∅

namespace LayeredOptions

scoped instance equivBEq_string : EquivBEq String := inferInstance

scoped instance lawfulHashable_string : LawfulHashable String := inferInstance

def getOr (a b c : Options) (k : String) : Option String :=
  (a[k]?.or b[k]?).or (getElem? c k)

def isOptionCanSave (overwrite : Options) (k : String) (defaults : Options) (v : String) : Bool :=
  if overwrite.contains k || defaults[k]?.any (· == v) then false else true

variable {s : LayeredOptions} {k : String} {v : String}

/-- `config.store()` -/
def store (s : LayeredOptions) : LayeredOptions := { s with file := s.options }

def getOptions (s : LayeredOptions) : Options := s.defaults ∪ s.options ∪ s.overwrite

def purifyOptions (s : LayeredOptions) (v : Options) : Options :=
  v.filter fun k v => isOptionCanSave s.overwrite k s.defaults v

def setOptions (v : Options) (s : LayeredOptions) : LayeredOptions :=
  let v := s.purifyOptions v
  if s.options = v then s else { s with options := v }.store

def getOption (s : LayeredOptions) (k : String) : String :=
  (getOr s.overwrite s.options s.defaults k).getD ""

def setOption (k v : String) (s : LayeredOptions) : LayeredOptions :=
  if !isOptionCanSave s.overwrite k s.defaults v then
    if s.options.contains k then { s with options := s.options.erase k }.store else s
  else
    let v2 := if v.isEmpty then none else some v
    if v2 ≠ s.options[k]? then
      if v2.isNone then { s with options := s.options.erase k }.store
      else { s with options := s.options.insert k v }.store
    else s

/-- The effective value, as far as there is one. -/
def effective (s : LayeredOptions) (k : String) : Option String :=
  getOr s.overwrite s.options s.defaults k

theorem isOptionCanSave_iff {overwrite defaults : Options} :
    isOptionCanSave overwrite k defaults v = true ↔
      overwrite[k]? = none ∧ defaults[k]? ≠ some v := by
  unfold isOptionCanSave
  rw [Std.ExtHashMap.contains_eq_isSome_getElem?]
  cases overwrite[k]? with
  | some o => simp
  | none => cases defaults[k]? <;> simp

theorem erase_of_getElem?_eq_none {m : Options} (h : m[k]? = none) : m.erase k = m := by
  apply Std.ExtHashMap.ext_getElem?
  intro k'
  rw [Std.ExtHashMap.getElem?_erase]
  by_cases hk : k = k'
  · rw [if_pos (beq_iff_eq.mpr hk), ← hk, h]
  · rw [if_neg (mt beq_iff_eq.mp hk)]

theorem insert_of_getElem?_eq_some {m : Options} (h : m[k]? = some v) : m.insert k v = m := by
  apply Std.ExtHashMap.ext_getElem?
  intro k'
  rw [Std.ExtHashMap.getElem?_insert]
  by_cases hk : k = k'
  · rw [if_pos (beq_iff_eq.mpr hk), ← hk, h]
  · rw [if_neg (mt beq_iff_eq.mp hk)]

/-- The layers after a write of one key; a value that is not stored takes the key away. -/
theorem setOption_layers (s : LayeredOptions) (hv : v ≠ "") :
    (s.setOption k v).overwrite = s.overwrite ∧ (s.setOption k v).defaults = s.defaults ∧
      (s.setOption k v).options =
        if isOptionCanSave s.overwrite k s.defaults v then s.options.insert k v
        else s.options.erase k := by
  have hne : v.isEmpty = false := by simpa using hv
  unfold setOption
  cases hsave : isOptionCanSave s.overwrite k s.defaults v with
  | false =>
    by_cases hk : s.options.contains k = true
    · simp only [Bool.not_false, if_true, hk, Bool.false_eq_true, if_false]
      exact ⟨rfl, rfl, rfl⟩
    · have hnone : s.options[k]? = none := by
        rw [Std.ExtHashMap.contains_eq_isSome_getElem?] at hk
        exact Option.not_isSome_iff_eq_none.mp hk
      simp only [Bool.not_false, if_true, hk, Bool.false_eq_true, if_false,
        erase_of_getElem?_eq_none hnone, and_self]
  | true =>
    by_cases hsame : s.options[k]? = some v
    · simp [hne, hsame, insert_of_getElem?_eq_some hsame]
    · simp [hne, Ne.symm hsame, store]

theorem getOption_setOption_self (hv : v ≠ "") :
    (s.setOption k v).getOption k = s.overwrite[k]?.getD v := by
  obtain ⟨hover, hdef, hopt⟩ := s.setOption_layers (k := k) hv
  rw [getOption, getOr, hover, hdef, hopt]
  cases ho : s.overwrite[k]? with
  | some o => rfl
  | none =>
    by_cases hsave : isOptionCanSave s.overwrite k s.defaults v = true
    · rw [if_pos hsave, Std.ExtHashMap.getElem?_insert_self]
      rfl
    · have hdefault : s.defaults[k]? = some v := by
        by_contra hno
        exact hsave (isOptionCanSave_iff.mpr ⟨ho, hno⟩)
      rw [if_neg hsave, Std.ExtHashMap.getElem?_erase_self, hdefault]
      rfl

theorem getOption_setOption_ne (hv : v ≠ "") {k' : String} (hk : k' ≠ k) :
    (s.setOption k v).getOption k' = s.getOption k' := by
  obtain ⟨hover, hdef, hopt⟩ := s.setOption_layers (k := k) hv
  have hkeep : (s.setOption k v).options[k']? = s.options[k']? := by
    rw [hopt]
    split
    · rw [Std.ExtHashMap.getElem?_insert, if_neg (mt beq_iff_eq.mp (Ne.symm hk))]
    · rw [Std.ExtHashMap.getElem?_erase, if_neg (mt beq_iff_eq.mp (Ne.symm hk))]
  rw [getOption, getOption, getOr, getOr, hover, hdef, hkeep]

/-- The map of all options is the map of the effective values. -/
theorem getElem?_getOptions (s : LayeredOptions) (k : String) :
    s.getOptions[k]? = s.effective k := by
  rw [getOptions, Std.ExtHashMap.getElem?_union, Std.ExtHashMap.getElem?_union, effective, getOr,
    Option.or_assoc]

theorem setOptions_eq (v : Options) (s : LayeredOptions) :
    (s.setOptions v).overwrite = s.overwrite ∧ (s.setOptions v).defaults = s.defaults ∧
      (s.setOptions v).options = s.purifyOptions v := by
  unfold setOptions
  dsimp only
  split
  · exact ⟨rfl, rfl, ‹_›⟩
  · exact ⟨rfl, rfl, rfl⟩

/-- What is left out when all options are written back is in another layer. -/
theorem effective_setOptions_getOptions (s : LayeredOptions) (k : String) :
    (s.setOptions s.getOptions).effective k = s.effective k := by
  obtain ⟨hover, hdef, hopt⟩ := setOptions_eq s.getOptions s
  rw [effective, getOr, hover, hdef, hopt, purifyOptions, Std.ExtHashMap.getElem?_filter',
    getElem?_getOptions, effective, getOr]
  cases ho : s.overwrite[k]? with
  | some o => rfl
  | none =>
    simp only [Option.none_or]
    cases hv : s.options[k]?.or s.defaults[k]? with
    | none =>
      rw [Option.or_eq_none_iff] at hv
      rw [hv.2]
      rfl
    | some v =>
      by_cases hdefault : s.defaults[k]? = some v
      · have hno : ¬isOptionCanSave s.overwrite k s.defaults v = true := by
          rw [isOptionCanSave_iff]
          exact fun h => h.2 hdefault
        simp [Option.filter, hno, hdefault]
      · have hsave : isOptionCanSave s.overwrite k s.defaults v = true :=
          isOptionCanSave_iff.mpr ⟨ho, hdefault⟩
        simp [Option.filter, hsave]

/-- Reads and writes of one key, and of all keys at once. -/
theorem layered_options (s : LayeredOptions) (k v : String) (hv : v ≠ "") :
    (s.setOption k v).getOption k = s.overwrite[k]?.getD v ∧
    (∀ k' ≠ k, (s.setOption k v).getOption k' = s.getOption k') ∧
    (∀ k' v', s.getOptions[k']? = some v' → s.getOption k' = v') ∧
    (∀ k', s.getOption k' ≠ "" → k' ∈ s.getOptions) ∧
    ∀ k', (s.setOptions s.getOptions).getOption k' = s.getOption k' := by
  refine ⟨getOption_setOption_self hv, fun k' hk => getOption_setOption_ne hv hk, ?_, ?_, ?_⟩
  · intro k' v' hget
    rw [getElem?_getOptions] at hget
    rw [getOption, ← effective, hget]
    rfl
  · intro k' hne
    rw [Std.ExtHashMap.mem_iff_isSome_getElem?, getElem?_getOptions, Option.isSome_iff_ne_none]
    intro hnone
    apply hne
    rw [getOption, ← effective, hnone]
    rfl
  · intro k'
    rw [getOption, ← effective, effective_setOptions_getOptions]
    rfl

/-- A key that has a default and is overwritten. -/
theorem layered_options_overwritten :
    let s : LayeredOptions := { overwrite := {("b", "c")}, defaults := {("b", "a")} }
    (s.setOption "b" "a").getOption "b" = "c" := by
  intro s
  rw [(layered_options s "b" "a" (by decide)).1]
  simp [s]

end LayeredOptions

end RustDesk
