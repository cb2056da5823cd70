import Mathlib.Data.List.Nodup
import Mathlib.Logic.Function.Basic

/-!
# Tables whose entries expire

An entry has the instant at which it was put. Old ones are dropped now and then, so that a table holds less
than what was put into it and not removed: `Holds` relates it to the map that forgets nothing. What is looked
up right after dropping is what that map has, unless it is too old.
-/

namespace ExpiringTable

variable {κ υ : Type*}

abbrev Table (κ υ : Type*) := List (κ × Nat × υ)

theorem keys_filter {t : Table κ υ} {p : κ × Nat × υ → Bool} (h : (t.map Prod.fst).Nodup) :
    ((t.filter p).map Prod.fst).Nodup :=
  h.sublist (List.filter_sublist.map Prod.fst)

variable [DecidableEq κ]

def retain (life now : Nat) (t : Table κ υ) : Table κ υ := t.filter fun v => now - v.2.1 < life

def remove (key : κ) (t : Table κ υ) : Table κ υ := t.filter (·.1 ≠ key)

def insert (now : Nat) (key : κ) (value : υ) (t : Table κ υ) : Table κ υ := (key, now, value) :: remove key t

/-- What is not too old. -/
def live (life now : Nat) (v : Option (Nat × υ)) : Option (Nat × υ) := v.filter fun v => now - v.1 < life

structure Holds (life now : Nat) (t : Table κ υ) (m : κ → Option (Nat × υ)) : Prop where
  keys : (t.map Prod.fst).Nodup
  entry : ∀ key, t.lookup key = m key ∨ t.lookup key = none ∧ live life now (m key) = none

variable {life now : Nat} {t : Table κ υ} {m : κ → Option (Nat × υ)}

theorem live_eq_some {v : Option (Nat × υ)} {w : Nat × υ} :
    live life now v = some w ↔ v = some w ∧ now - w.1 < life := by
  unfold live
  rw [Option.filter_eq_some_iff, decide_eq_true_eq]

theorem live_eq_none_of_le {now' : Nat} (hle : now ≤ now') {v : Option (Nat × υ)} (h : live life now v = none) :
    live life now' v = none := by
  by_contra hne
  obtain ⟨w, hw⟩ := Option.ne_none_iff_exists'.mp hne
  obtain ⟨hv, hlive⟩ := live_eq_some.mp hw
  have hw' : live life now v = some w := live_eq_some.mpr ⟨hv, by omega⟩
  rw [h] at hw'
  cases hw'

theorem lookup_eq_some_iff_mem {key : κ} {v : Nat × υ} (hkeys : (t.map Prod.fst).Nodup) :
    t.lookup key = some v ↔ (key, v) ∈ t := by
  induction t with
  | nil => exact iff_of_false nofun List.not_mem_nil
  | cons p t ih =>
    obtain ⟨hp, hkeys⟩ := List.nodup_cons.mp hkeys
    rw [List.lookup_cons, List.mem_cons]
    by_cases hkey : key = p.1
    · subst hkey
      rw [beq_self_eq_true]
      constructor
      · rintro ⟨⟩
        exact .inl rfl
      · rintro (hv | hv)
        · rw [← hv]
        · exact absurd (List.mem_map_of_mem hv) hp
    · rw [beq_eq_false_iff_ne.mpr hkey]
      refine (ih hkeys).trans (or_iff_right fun hv => hkey ?_).symm
      rw [← hv]

theorem lookup_remove {key key' : κ} :
    (remove key t).lookup key' = if key' = key then none else t.lookup key' := by
  unfold remove
  induction t with
  | nil => exact (ite_self none).symm
  | cons p t ih =>
    by_cases hp : p.1 = key
    · rw [List.filter_cons_of_neg (by simpa using hp), ih]
      by_cases hkey : key' = key
      · rw [if_pos hkey, if_pos hkey]
      · rw [if_neg hkey, if_neg hkey, List.lookup_cons, beq_eq_false_iff_ne.mpr (by rwa [hp])]
    · rw [List.filter_cons_of_pos (by simpa using hp), List.lookup_cons, List.lookup_cons, ih]
      by_cases hkey : key' = key
      · rw [if_pos hkey, if_pos hkey, beq_eq_false_iff_ne.mpr fun h => hp (h.symm.trans hkey)]
      · rw [if_neg hkey, if_neg hkey]

theorem lookup_insert {key key' : κ} {value : υ} :
    (insert now key value t).lookup key' = if key' = key then some (now, value) else t.lookup key' := by
  unfold insert
  rw [List.lookup_cons, lookup_remove]
  by_cases hkey : key' = key
  · rw [beq_iff_eq.mpr hkey]
    exact (if_pos hkey).symm
  · rw [if_neg hkey, if_neg hkey, beq_eq_false_iff_ne.mpr hkey]

theorem holds_nil : Holds life now ([] : Table κ υ) fun _ => none := ⟨List.nodup_nil, fun _ => .inl rfl⟩

namespace Holds

/-- What is in the table was put and not removed. -/
theorem mem (h : Holds life now t m) {key : κ} {v : Nat × υ} (hv : (key, v) ∈ t) : m key = some v := by
  have hlookup := (lookup_eq_some_iff_mem h.keys).mpr hv
  rcases h.entry key with heq | ⟨heq, -⟩
  · rw [← heq, hlookup]
  · rw [hlookup] at heq
    cases heq

theorem later (h : Holds life now t m) {now' : Nat} (hle : now ≤ now') : Holds life now' t m :=
  ⟨h.keys, fun key => (h.entry key).imp id fun ⟨hnone, hold⟩ => ⟨hnone, live_eq_none_of_le hle hold⟩⟩

theorem lookup_retain (h : Holds life now t m) (key : κ) :
    (retain life now t).lookup key = live life now (m key) := by
  refine Option.ext fun v => ?_
  unfold ExpiringTable.retain
  rw [lookup_eq_some_iff_mem (keys_filter h.keys), live_eq_some, List.mem_filter, decide_eq_true_eq]
  refine and_congr_left fun hlive => ⟨h.mem, fun hv => ?_⟩
  rcases h.entry key with heq | ⟨-, hold⟩
  · exact (lookup_eq_some_iff_mem h.keys).mp (heq.trans hv)
  · cases hold.symm.trans (live_eq_some.mpr ⟨hv, hlive⟩)

theorem retain (h : Holds life now t m) : Holds life now (retain life now t) m := by
  refine ⟨keys_filter h.keys, fun key => ?_⟩
  rw [h.lookup_retain]
  cases hlive : live life now (m key) with
  | none => exact .inr ⟨rfl, rfl⟩
  | some v => exact .inl (live_eq_some.mp hlive).1.symm

theorem remove (h : Holds life now t m) (key : κ) :
    Holds life now (remove key t) (Function.update m key none) := by
  refine ⟨keys_filter h.keys, fun key' => ?_⟩
  rw [lookup_remove]
  by_cases hkey : key' = key
  · subst hkey
    rw [if_pos rfl, Function.update_self]
    exact .inl rfl
  · rw [if_neg hkey, Function.update_of_ne hkey]
    exact h.entry key'

theorem insert (h : Holds life now t m) (key : κ) (value : υ) :
    Holds life now (insert now key value t) (Function.update m key (some (now, value))) := by
  refine ⟨List.nodup_cons.mpr ⟨fun hmem => ?_, keys_filter h.keys⟩, fun key' => ?_⟩
  · obtain ⟨p, hp, hkey⟩ := List.mem_map.mp hmem
    have hne := (List.mem_filter.mp hp).2
    rw [decide_eq_true_eq] at hne
    exact hne hkey
  · rw [lookup_insert]
    by_cases hkey : key' = key
    · subst hkey
      rw [if_pos rfl, Function.update_self]
      exact .inl rfl
    · rw [if_neg hkey, Function.update_of_ne hkey]
      exact h.entry key'

end Holds

end ExpiringTable
