import Mathlib.Data.List.Basic
import Mathlib.Logic.Function.Basic
import Mathlib.Tactic.Common

/-!
# Loops that store

A loop whose body stores at an address is the list of its stores. What is found at an address
afterwards is the value that the loop stores there, whatever was there before.
-/

namespace StoreLoop

variable {ι α : Type*}

/-- The stores of a body that runs for all `r < m` and, within, for all `c < n r`. -/
def nested (m : Nat) (n : Nat → Nat) (body : Nat → Nat → List (ι × α)) : List (ι × α) :=
  (List.range m).flatMap fun r => (List.range (n r)).flatMap fun c => body r c

theorem mem_nested {m : Nat} {n : Nat → Nat} {body : Nat → Nat → List (ι × α)} {w : ι × α} :
    w ∈ nested m n body ↔ ∃ r < m, ∃ c < n r, w ∈ body r c := by
  simp only [nested, List.mem_flatMap, List.mem_range]

theorem map_nested {κ β : Type*} (g : ι × α → κ × β) (m : Nat) (n : Nat → Nat)
    (body : Nat → Nat → List (ι × α)) :
    (nested m n body).map g = nested m n fun r c => (body r c).map g := by
  simp only [nested, List.map_flatMap]

variable [DecidableEq ι]

/-- The memory after the stores, in their order. -/
def store (buf : ι → α) (ws : List (ι × α)) : ι → α :=
  ws.foldl (fun b w => Function.update b w.1 w.2) buf

variable {buf : ι → α} {ws : List (ι × α)} {i : ι} {v : α}

@[simp] theorem store_nil : store buf [] = buf := rfl

@[simp] theorem store_cons (w : ι × α) :
    store buf (w :: ws) = store (Function.update buf w.1 w.2) ws := rfl

theorem store_of_forall_ne (h : ∀ w ∈ ws, w.1 ≠ i) : store buf ws i = buf i := by
  induction ws generalizing buf with
  | nil => rfl
  | cons w ws ih =>
    have hne : i ≠ w.1 := Ne.symm (h w List.mem_cons_self)
    rw [store_cons, ih fun x hx => h x (List.mem_cons_of_mem w hx)]
    exact Function.update_of_ne hne _ _

theorem store_of_forall_eq (hmem : (i, v) ∈ ws) (h : ∀ w ∈ ws, w.1 = i → w.2 = v) :
    store buf ws i = v := by
  induction ws generalizing buf with
  | nil => cases hmem
  | cons w ws ih =>
    have htail : ∀ x ∈ ws, x.1 = i → x.2 = v := fun x hx => h x (List.mem_cons_of_mem w hx)
    rw [store_cons]
    by_cases hlater : (i, v) ∈ ws
    · exact ih hlater htail
    · -- the first store is the last one at this address
      have hw : w = (i, v) := by
        rcases List.mem_cons.mp hmem with hw | hw
        · exact hw.symm
        · exact absurd hw hlater
      have hnone : ∀ x ∈ ws, x.1 ≠ i := by
        intro x hx hxi
        apply hlater
        have hx' : x = (i, v) := Prod.ext hxi (htail x hx hxi)
        exact hx' ▸ hx
      rw [store_of_forall_ne hnone, hw]
      exact Function.update_self _ _ _

/-- Where each address is stored to with one value, what is found there does not depend on the
order of the stores, nor on what was there before. -/
theorem store_congr {buf' : ι → α} {ws' : List (ι × α)} (hmem : ∀ w, w ∈ ws ↔ w ∈ ws')
    (hone : ∀ w ∈ ws, ∀ x ∈ ws, w.1 = x.1 → w.2 = x.2) (hi : ∃ w ∈ ws, w.1 = i) :
    store buf ws i = store buf' ws' i := by
  obtain ⟨⟨j, u⟩, hw, rfl⟩ := hi
  have hvalue : ∀ x ∈ ws, x.1 = j → x.2 = u := fun x hx hxj => hone x hx (j, u) hw hxj
  have hvalue' : ∀ x ∈ ws', x.1 = j → x.2 = u := fun x hx => hvalue x ((hmem x).mpr hx)
  rw [store_of_forall_eq hw hvalue, store_of_forall_eq ((hmem _).mp hw) hvalue']

theorem store_nested {m : Nat} {n : Nat → Nat} {body : Nat → Nat → List (ι × α)} {r c : Nat}
    (hr : r < m) (hc : c < n r) (hmem : (i, v) ∈ body r c)
    (h : ∀ r' < m, ∀ c' < n r', ∀ w ∈ body r' c', w.1 = i → w.2 = v) :
    store buf (nested m n body) i = v := by
  apply store_of_forall_eq
  · exact mem_nested.mpr ⟨r, hr, c, hc, hmem⟩
  · intro w hw hwi
    obtain ⟨r', hr', c', hc', hw⟩ := mem_nested.mp hw
    exact h r' hr' c' hc' w hw hwi

end StoreLoop
