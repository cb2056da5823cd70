import Mathlib.Data.List.Basic

/-!
# Logs of transitions

Somebody brings things down and up through handles, of which several may be for the same
thing, and leaves a log of the transitions with the newest first. A thing is down when the
newest transition by one of its handles is one. `Covered` says of every thing that is down
that it has a property, which is what has to be known to bring all of them up again; a log
settles into a longer one when that has nothing down which was not down before.
-/

namespace Transitions

variable {κ ι : Type*} [DecidableEq ι]

/-- `f` tells which thing a handle is for, if any. -/
def Down (f : κ → Option ι) : List (κ × Bool) → ι → Prop
  | [], _ => False
  | (k, d) :: log, m => if f k = some m then d = true else Down f log m

instance decidableDown (f : κ → Option ι) :
    ∀ (log : List (κ × Bool)) (m : ι), Decidable (Down f log m)
  | [], _ => .isFalse not_false
  | (k, d) :: log, m =>
    have := decidableDown f log m
    inferInstanceAs (Decidable (if f k = some m then d = true else Down f log m))

def Covered (f : κ → Option ι) (log : List (κ × Bool)) (P : ι → Prop) : Prop :=
  ∀ m, Down f log m → P m

def Settles (f : κ → Option ι) (log log' : List (κ × Bool)) : Prop :=
  ∀ m, Down f log' m → Down f log m

variable {f : κ → Option ι} {log log' log'' : List (κ × Bool)} {P Q : ι → Prop} {k : κ} {m : ι}
  {d : Bool}

@[simp] theorem not_down_nil : ¬Down f [] m := not_false

theorem down_cons_of_eq (h : f k = some m) : Down f ((k, d) :: log) m ↔ d = true := by
  rw [Down, if_pos h]

theorem down_cons_of_ne (h : f k ≠ some m) : Down f ((k, d) :: log) m ↔ Down f log m := by
  rw [Down, if_neg h]

theorem down_of_down_up (h : Down f ((k, false) :: log) m) : f k ≠ some m ∧ Down f log m := by
  by_cases hk : f k = some m
  · rw [down_cons_of_eq hk] at h
    exact absurd h Bool.false_ne_true
  · exact ⟨hk, (down_cons_of_ne hk).mp h⟩

/-! ### Settling -/

theorem Settles.refl (log : List (κ × Bool)) : Settles f log log := fun _ => id

theorem Settles.trans (h : Settles f log log') (h' : Settles f log' log'') :
    Settles f log log'' := fun m hm => h m (h' m hm)

theorem settles_up (k : κ) (log : List (κ × Bool)) : Settles f log ((k, false) :: log) :=
  fun _ hm => (down_of_down_up hm).2

theorem Settles.between (h : Settles f ((k, true) :: log) log') :
    Settles f log ((k, false) :: log') := by
  intro m hm
  obtain ⟨hk, hdown⟩ := down_of_down_up hm
  exact (down_cons_of_ne hk).mp (h m hdown)

/-! ### Covers -/

theorem Covered.imp (h : Covered f log P) (hpq : ∀ m, P m → Q m) : Covered f log Q :=
  fun m hm => hpq m (h m hm)

theorem Covered.of_settles (h : Covered f log P) (hs : Settles f log log') : Covered f log' P :=
  fun m hm => h m (hs m hm)

theorem Covered.release (h : Covered f log fun m => f k = some m ∨ P m) :
    Covered f ((k, false) :: log) P := by
  intro m hm
  obtain ⟨hk, hdown⟩ := down_of_down_up hm
  rcases h m hdown with hm | hm
  · exact absurd hm hk
  · exact hm

theorem Covered.down (h : Covered f log P) (hk : ∀ m, f k = some m → P m) :
    Covered f ((k, true) :: log) P := by
  intro m hm
  by_cases hkm : f k = some m
  · exact hk m hkm
  · exact h m ((down_cons_of_ne hkm).mp hm)

end Transitions
