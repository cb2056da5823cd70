import RustDesk.LayeredOptions
import RustDesk.History
import Mathlib.Logic.Function.Basic
import Mathlib.Data.List.Nodup

/-!
# Options pushed by the server

`set_option` changes one key of the stored options under their lock. `handle_config_options` takes
the lock twice: it copies all options, edits its copy and writes the whole map back. Any number of
runs of it can be between the two, and a run knows only the values that it has copied.

`expected` is what the last writer of each key has written. The defaults and the settings that
overwrite options do not change.
-/

namespace RustDesk.LayeredOptions

open History (run Guarded Throughout)

/-- The `HashMap` of a strategy; each key is there once. -/
structure Strategy where
  entries : List (String × String)
  nodup : (entries.map Prod.fst).Nodup

namespace Strategy

/-- The loop of `handle_config_options` over its copy of the options. -/
def edit (strategy : Strategy) (defaults options : Options) : Options :=
  strategy.entries.foldl
    (fun options (k, v) =>
      if v.isEmpty && (defaults[k]?.getD "").isEmpty then options.erase k else options.insert k v)
    options

end Strategy

/-- A run of `handle_config_options` that has copied the options and not yet written them. -/
structure Applying where
  strategy : Strategy
  copy : Options

/-- The value of a key after `set_option`; the empty text removes it. -/
def writtenValue (s : LayeredOptions) (k v : String) : String :=
  if v = "" then s.defaults[k]?.getD "" else v

structure Shared where
  layers : LayeredOptions
  applying : List Applying := []
  expected : String → String

namespace Shared

inductive Event
  | setOption (k v : String)
  | getOptions (strategy : Strategy)
  | setOptions (i : Nat)

/-- One access to the stored options. `setOptions i` is the second one of the `i`-th run that is
under way. -/
def step (w : Shared) : Event → Shared
  | .setOption k v =>
    { w with
      layers := w.layers.setOption k v
      expected := Function.update w.expected k (w.layers.writtenValue k v) }
  | .getOptions strategy => { w with applying := w.applying ++ [⟨strategy, w.layers.getOptions⟩] }
  | .setOptions i =>
    match w.applying[i]? with
    | none => w
    | some a =>
      { w with
        layers := w.layers.setOptions (a.strategy.edit w.layers.defaults a.copy)
        applying := w.applying.eraseIdx i
        expected := fun k => (a.strategy.entries.lookup k).getD (w.expected k) }

/-- Every key that is not overwritten has the value of its last writer. -/
def NothingLost (w : Shared) : Prop :=
  ∀ k, w.layers.overwrite[k]? = none → w.layers.getOption k = w.expected k

/-- The key is overwritten, or has this value already. -/
def Has (w : Shared) (k v : String) : Prop :=
  w.layers.overwrite[k]? = none → w.layers.getOption k = v

/-- What is written is new only while no other run of `handle_config_options` is between its
two accesses. -/
def Undisturbed (w : Shared) : Event → Prop
  | .setOption k v => w.applying = [] ∨ w.Has k (w.layers.writtenValue k v)
  | .getOptions _ => True
  | .setOptions i => w.applying.eraseIdx i = [] ∨
    ∀ a, w.applying[i]? = some a → ∀ k v, (k, v) ∈ a.strategy.entries → w.Has k v

end Shared

variable {s : LayeredOptions} {k k' v : String}

/-! ### Writes of one key -/

theorem setOption_empty (s : LayeredOptions) (k : String) :
    (s.setOption k "").overwrite = s.overwrite ∧ (s.setOption k "").defaults = s.defaults ∧
      (s.setOption k "").options = s.options.erase k := by
  have hempty : "".isEmpty = true := rfl
  unfold setOption
  cases hsave : isOptionCanSave s.overwrite k s.defaults "" with
  | false =>
    by_cases hk : s.options.contains k = true
    · simp only [Bool.not_false, if_true, hk]
      exact ⟨rfl, rfl, rfl⟩
    · have hnone : s.options[k]? = none := by
        rw [Std.ExtHashMap.contains_eq_isSome_getElem?] at hk
        exact Option.not_isSome_iff_eq_none.mp hk
      simp only [Bool.not_false, if_true, hk, Bool.false_eq_true, if_false,
        erase_of_getElem?_eq_none hnone, and_self]
  | true =>
    by_cases hnone : s.options[k]? = none
    · simp [hempty, hnone, erase_of_getElem?_eq_none hnone]
    · simp [hempty, Ne.symm hnone, store]

theorem setOption_fixed (s : LayeredOptions) (k v : String) :
    (s.setOption k v).overwrite = s.overwrite ∧ (s.setOption k v).defaults = s.defaults := by
  by_cases hv : v = ""
  · subst hv
    exact ⟨(setOption_empty s k).1, (setOption_empty s k).2.1⟩
  · have hlayers := s.setOption_layers (k := k) hv
    exact ⟨hlayers.1, hlayers.2.1⟩

theorem getOption_setOption (hk : s.overwrite[k']? = none) :
    (s.setOption k v).getOption k' = if k' = k then s.writtenValue k v else s.getOption k' := by
  by_cases hv : v = ""
  · subst hv
    obtain ⟨hover, hdef, hopt⟩ := setOption_empty s k
    rw [getOption, getOption, getOr, getOr, hover, hdef, hopt, hk, writtenValue, if_pos rfl,
      Std.ExtHashMap.getElem?_erase]
    by_cases heq : k' = k
    · rw [if_pos heq, heq, if_pos (beq_self_eq_true k)]
      rfl
    · rw [if_neg heq, if_neg (mt beq_iff_eq.mp (Ne.symm heq))]
  · rw [writtenValue, if_neg hv]
    by_cases heq : k' = k
    · subst heq
      rw [if_pos rfl, getOption_setOption_self hv, hk]
      rfl
    · rw [if_neg heq, getOption_setOption_ne hv heq]

/-! ### Writes of the whole map -/

/-- What a map gives for a key once it is stored. -/
def valueIn (s : LayeredOptions) (m : Options) (k : String) : String := (m[k]?.or s.defaults[k]?).getD ""

theorem getOption_setOptions {m : Options} (hk : s.overwrite[k]? = none) :
    (s.setOptions m).getOption k = s.valueIn m k := by
  obtain ⟨hover, hdef, hopt⟩ := setOptions_eq m s
  rw [getOption, getOr, hover, hdef, hopt, hk, purifyOptions, Std.ExtHashMap.getElem?_filter', valueIn]
  cases hm : m[k]? with
  | none => rfl
  | some v =>
    by_cases hdefault : s.defaults[k]? = some v
    · have hno : ¬ isOptionCanSave s.overwrite k s.defaults v = true := by
        rw [isOptionCanSave_iff]
        exact fun h => h.2 hdefault
      simp [Option.filter, hno, hdefault]
    · have hsave : isOptionCanSave s.overwrite k s.defaults v = true :=
        isOptionCanSave_iff.mpr ⟨hk, hdefault⟩
      simp [Option.filter, hsave]

theorem valueIn_getOptions (hk : s.overwrite[k]? = none) : s.valueIn s.getOptions k = s.getOption k := by
  rw [valueIn, getElem?_getOptions, effective, getOption, getOr, hk, Option.none_or, Option.or_assoc,
    Option.or_self]

/-- The editing of one key of the copy. -/
theorem valueIn_editOne (s : LayeredOptions) (m : Options) (k v k' : String) :
    s.valueIn (if v.isEmpty && (s.defaults[k]?.getD "").isEmpty then m.erase k else m.insert k v) k' =
      if k' = k then v else s.valueIn m k' := by
  by_cases heq : k' = k
  · subst heq
    rw [if_pos rfl]
    by_cases hempty : (v.isEmpty && (s.defaults[k']?.getD "").isEmpty) = true
    · rw [if_pos hempty, valueIn, Std.ExtHashMap.getElem?_erase_self, Option.none_or]
      rw [Bool.and_eq_true, String.isEmpty_iff, String.isEmpty_iff] at hempty
      rw [hempty.1, hempty.2]
    · rw [if_neg hempty, valueIn, Std.ExtHashMap.getElem?_insert_self]
      rfl
  · rw [if_neg heq, valueIn, valueIn]
    split
    · rw [Std.ExtHashMap.getElem?_erase, if_neg (mt beq_iff_eq.mp (Ne.symm heq))]
    · rw [Std.ExtHashMap.getElem?_insert, if_neg (mt beq_iff_eq.mp (Ne.symm heq))]

theorem valueIn_edit (s : LayeredOptions) (strategy : Strategy) (m : Options) (k : String) :
    s.valueIn (strategy.edit s.defaults m) k = (strategy.entries.lookup k).getD (s.valueIn m k) := by
  obtain ⟨entries, hnodup⟩ := strategy
  simp only [Strategy.edit]
  induction entries generalizing m with
  | nil => rfl
  | cons e entries ih =>
    obtain ⟨key, v⟩ := e
    rw [List.map_cons, List.nodup_cons] at hnodup
    rw [List.foldl_cons, ih _ hnodup.2, valueIn_editOne]
    by_cases heq : k = key
    · subst heq
      have hlater : entries.lookup k = none := by
        rw [List.lookup_eq_none_iff]
        intro p hp
        rw [bne_iff_ne]
        exact fun h => hnodup.1 (List.mem_map.mpr ⟨p, hp, h.symm⟩)
      rw [hlater, if_pos rfl, List.lookup_cons_self]
      rfl
    · rw [if_neg heq, List.lookup_cons, beq_false_of_ne heq]

/-! ### Any interleaving -/

namespace Shared

variable {w : Shared} {e : Event}

/-- The copies that are still to be written have the values that the options have now. -/
structure Current (w : Shared) : Prop where
  kept : w.NothingLost
  copies : ∀ a ∈ w.applying, ∀ k, w.layers.overwrite[k]? = none →
    w.layers.valueIn a.copy k = w.layers.getOption k

/-- The settings that stay are the same after a step. -/
theorem step_fixed (w : Shared) (e : Event) :
    (w.step e).layers.overwrite = w.layers.overwrite ∧ (w.step e).layers.defaults = w.layers.defaults := by
  cases e with
  | setOption k v => exact setOption_fixed w.layers k v
  | getOptions strategy => exact ⟨rfl, rfl⟩
  | setOptions i =>
    simp only [step]
    cases w.applying[i]? with
    | none => exact ⟨rfl, rfl⟩
    | some a =>
      obtain ⟨hover, hdef, -⟩ := setOptions_eq (a.strategy.edit w.layers.defaults a.copy) w.layers
      exact ⟨hover, hdef⟩

theorem overwrite_run (w : Shared) (es : List Event) :
    (run step w es).layers.overwrite = w.layers.overwrite := by
  induction es generalizing w with
  | nil => rfl
  | cons e es ih => exact (ih (w.step e)).trans (step_fixed w e).1

theorem valueIn_step (w : Shared) (e : Event) (m : Options) (k : String) :
    (w.step e).layers.valueIn m k = w.layers.valueIn m k := by
  rw [valueIn, valueIn, (step_fixed w e).2]

/-- A step that changes no value leaves the copies current. -/
theorem copies_of_same (hw : w.Current)
    (hsame : ∀ k, w.layers.overwrite[k]? = none → (w.step e).layers.getOption k = w.layers.getOption k)
    {a : Applying} (ha : a ∈ w.applying) (k : String) (hk : (w.step e).layers.overwrite[k]? = none) :
    (w.step e).layers.valueIn a.copy k = (w.step e).layers.getOption k := by
  rw [(step_fixed w e).1] at hk
  rw [valueIn_step, hsame k hk]
  exact hw.copies a ha k hk

theorem Current.setOption {k v : String} (hw : w.Current) (hok : w.Undisturbed (.setOption k v)) :
    (w.step (.setOption k v)).Current := by
  have hvalue : ∀ k', w.layers.overwrite[k']? = none → (w.step (.setOption k v)).layers.getOption k' =
      if k' = k then w.layers.writtenValue k v else w.layers.getOption k' := fun k' hk =>
    getOption_setOption hk
  constructor
  · intro k' hk
    rw [(step_fixed w _).1] at hk
    rw [hvalue k' hk]
    by_cases heq : k' = k
    · rw [if_pos heq, heq]
      exact (Function.update_self k _ w.expected).symm
    · rw [if_neg heq, hw.kept k' hk]
      exact (Function.update_of_ne heq _ w.expected).symm
  · intro a ha
    rcases hok with hnone | hhas
    · have ha' : a ∈ w.applying := ha
      rw [hnone] at ha'
      exact absurd ha' List.not_mem_nil
    · refine copies_of_same hw (fun k' hk => ?_) ha
      rw [hvalue k' hk]
      by_cases heq : k' = k
      · subst heq
        rw [if_pos rfl, hhas hk]
      · rw [if_neg heq]

theorem Current.getOptions (hw : w.Current) (strategy : Strategy) :
    (w.step (.getOptions strategy)).Current := by
  refine ⟨hw.kept, fun a ha k hk => ?_⟩
  rcases List.mem_append.mp ha with ha | ha
  · exact hw.copies a ha k hk
  · rw [List.mem_singleton.mp ha]
    exact valueIn_getOptions hk

theorem getOption_setOptions_step {i : Nat} {a : Applying} (hw : w.Current) (ha : w.applying[i]? = some a)
    {k : String} (hk : w.layers.overwrite[k]? = none) :
    (w.step (.setOptions i)).layers.getOption k =
      (a.strategy.entries.lookup k).getD (w.layers.getOption k) := by
  simp only [step, ha]
  rw [getOption_setOptions hk, valueIn_edit, hw.copies a (List.mem_of_getElem? ha) k hk]

theorem Current.setOptions {i : Nat} (hw : w.Current) (hok : w.Undisturbed (.setOptions i)) :
    (w.step (.setOptions i)).Current := by
  cases ha : w.applying[i]? with
  | none =>
    have hstep : w.step (.setOptions i) = w := by simp only [step, ha]
    rw [hstep]
    exact hw
  | some a =>
    have happlying : (w.step (.setOptions i)).applying = w.applying.eraseIdx i := by
      simp only [step, ha]
    have hexpected : ∀ k, (w.step (.setOptions i)).expected k =
        (a.strategy.entries.lookup k).getD (w.expected k) := fun k => by simp only [step, ha]
    constructor
    · intro k hk
      rw [(step_fixed w _).1] at hk
      rw [getOption_setOptions_step hw ha hk, hexpected, hw.kept k hk]
    · intro b hb
      rw [happlying] at hb
      rcases hok with hnone | hhas
      · rw [hnone] at hb
        exact absurd hb List.not_mem_nil
      · refine copies_of_same hw (fun k hk => ?_) ((List.eraseIdx_sublist _ _).subset hb)
        rw [getOption_setOptions_step hw ha hk]
        cases hlookup : a.strategy.entries.lookup k with
        | none => rfl
        | some v =>
          obtain ⟨before, after, hsplit, -⟩ := List.lookup_eq_some_iff.mp hlookup
          have hmem : (k, v) ∈ a.strategy.entries := by
            rw [hsplit]
            exact List.mem_append_right _ List.mem_cons_self
          exact (hhas a ha k v hmem hk).symm

theorem Current.step (hw : w.Current) (hok : w.Undisturbed e) : (w.step e).Current := by
  cases e with
  | setOption k v => exact hw.setOption hok
  | getOptions strategy => exact hw.getOptions strategy
  | setOptions i => exact hw.setOptions hok

def start (layers : LayeredOptions) : Shared where
  layers := layers
  expected := layers.getOption

/-- While every new value is written at a time when no other run of `handle_config_options` is
between its two accesses, no update is lost. -/
theorem nothingLost_of_undisturbed (layers : LayeredOptions) (es : List Event)
    (hok : Guarded step Undisturbed (start layers) es) :
    Throughout step NothingLost (start layers) es := by
  have hstart : (start layers).Current := ⟨fun _ _ => rfl, fun a ha => absurd ha List.not_mem_nil⟩
  have hcurrent : Throughout step Current (start layers) es :=
    History.throughout_of_guarded (fun w e hw hok => hw.step hok) hstart hok
  exact History.throughout_imp (fun w hw => hw.kept) hcurrent

def oneOption : Strategy := ⟨[("b", "1")], by decide⟩

theorem nothingLost_one_after_the_other :
    Throughout step NothingLost (start {})
      [.getOptions oneOption, .setOptions 0, .setOption "a" "x", .getOptions oneOption, .setOptions 0] :=
  nothingLost_of_undisturbed {} _
    ⟨trivial, Or.inl rfl, Or.inl rfl, trivial, Or.inl rfl, trivial⟩

/-- An option that is set between the two accesses goes back to what it was. -/
theorem setOption_reverted (layers : LayeredOptions) (strategy : Strategy) (v : String)
    (hk : layers.overwrite[k]? = none) (hother : strategy.entries.lookup k = none) :
    (run step (start layers) [.getOptions strategy, .setOption k v, .setOptions 0]).layers.getOption k =
      layers.getOption k := by
  obtain ⟨hover, hdef⟩ := setOption_fixed layers k v
  have hvalue : ∀ m, (layers.setOption k v).valueIn m k = layers.valueIn m k := fun m => by
    rw [valueIn, valueIn, hdef]
  change ((layers.setOption k v).setOptions
    (strategy.edit (layers.setOption k v).defaults layers.getOptions)).getOption k = _
  rw [getOption_setOptions (hover ▸ hk), valueIn_edit, hother, Option.getD_none, hvalue, valueIn_getOptions hk]

/-- The strategies concern other keys than the calls of `set_option`. -/
def Separate (es : List Event) : Prop :=
  ∀ k v strategy, .setOption k v ∈ es → .getOptions strategy ∈ es → strategy.entries.lookup k = none

theorem update_lost :
    ¬ ∀ (layers : LayeredOptions) (es : List Event), Separate es →
      (run step (start layers) es).applying = [] → (run step (start layers) es).NothingLost := by
  intro hall
  let es : List Event := [.getOptions oneOption, .setOption "a" "x", .setOptions 0]
  have hseparate : Separate es := by
    intro k v strategy hset hget
    simp only [es, List.mem_cons, List.not_mem_nil, or_false, reduceCtorEq, false_or, Event.setOption.injEq,
      Event.getOptions.injEq] at hset hget
    rw [hset.1, hget]
    decide
  have hover : (run step (start {}) es).layers.overwrite["a"]? = none := by
    rw [overwrite_run]
    exact Std.ExtHashMap.getElem?_empty
  have hlost := hall {} es hseparate rfl "a" hover
  have hexpected : (run step (start {}) es).expected "a" = "x" := by decide
  rw [setOption_reverted {} oneOption "x" Std.ExtHashMap.getElem?_empty (by decide), hexpected] at hlost
  have hempty : getOption {} "a" = "" := by simp [getOption, getOr]
  rw [hempty] at hlost
  exact absurd hlost (by decide)

end Shared

end RustDesk.LayeredOptions
