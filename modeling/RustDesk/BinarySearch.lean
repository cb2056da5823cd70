import Mathlib.Data.List.Nodup
import Mathlib.Order.Defs.LinearOrder
import Mathlib.Order.Lattice

/-!
# Binary search in a sorted list

The interval that can hold the element is halved until one place is left, and only that place
is compared for equality. `.ok` has the place of the element, `.error` the place where it could
be inserted.
-/

namespace BinarySearch

variable {α : Type*} [LinearOrder α]

/-- The place that is left of `size` places from `base` on. -/
def narrow (xs : List α) (x : α) (size base : Nat) : Nat :=
  if size ≤ 1 then base
  else
    let half := size / 2
    let mid := base + half
    match xs[mid]? with
    | some y => narrow xs x (size - half) (if x < y then base else mid)
    | none => base
  termination_by size
  decreasing_by omega

def binarySearch (xs : List α) (x : α) : Except Nat Nat :=
  let base := narrow xs x xs.length 0
  match xs[base]? with
  | none => .error 0
  | some y => if y = x then .ok base else if y < x then .error (base + 1) else .error base

variable {xs : List α} {x : α}

theorem narrow_eq (hsorted : xs.Pairwise (· < ·)) {size base i : Nat} (hx : xs[i]? = some x)
    (hlow : base ≤ i) (hhigh : i < base + size) (hsize : base + size ≤ xs.length) :
    narrow xs x size base = i := by
  induction size using Nat.strongRecOn generalizing base with
  | ind size ih =>
    rw [narrow]
    by_cases hlast : size ≤ 1
    · rw [if_pos hlast]
      omega
    · rw [if_neg hlast]
      have hmid : base + size / 2 < xs.length := by omega
      obtain ⟨hi, hxi⟩ := List.getElem?_eq_some_iff.mp hx
      simp only [List.getElem?_eq_getElem hmid]
      by_cases hlt : x < xs[base + size / 2]
      · have hbefore : i < base + size / 2 := by
          by_contra hno
          rcases Nat.eq_or_lt_of_le (Nat.not_lt.mp hno) with heq | hgt
          · simp only [heq, hxi] at hlt
            exact lt_irrefl x hlt
          · have hafter := List.pairwise_iff_getElem.mp hsorted _ _ hmid hi hgt
            rw [hxi] at hafter
            exact lt_asymm hlt hafter
        rw [if_pos hlt]
        exact ih _ (by omega) hlow (by omega) (by omega)
      · have hafter : base + size / 2 ≤ i := by
          by_contra hno
          have hbefore := List.pairwise_iff_getElem.mp hsorted _ _ hi hmid (Nat.not_le.mp hno)
          rw [hxi] at hbefore
          exact hlt hbefore
        rw [if_neg hlt]
        exact ih _ (by omega) hafter (by omega) (by omega)

theorem getElem?_of_binarySearch {i : Nat} (h : binarySearch xs x = .ok i) : xs[i]? = some x := by
  unfold binarySearch at h
  cases hbase : xs[narrow xs x xs.length 0]? with
  | none =>
    simp only [hbase] at h
    cases h
  | some y =>
    simp only [hbase] at h
    by_cases heq : y = x
    · rw [if_pos heq] at h
      cases h
      rw [hbase, heq]
    · rw [if_neg heq] at h
      split at h <;> cases h

theorem binarySearch_eq_ok (hsorted : xs.Pairwise (· < ·)) {i : Nat} :
    binarySearch xs x = .ok i ↔ xs[i]? = some x := by
  refine ⟨getElem?_of_binarySearch, fun hx => ?_⟩
  obtain ⟨hi, -⟩ := List.getElem?_eq_some_iff.mp hx
  have hplace : narrow xs x xs.length 0 = i :=
    narrow_eq hsorted hx (Nat.zero_le i) (by omega) (by omega)
  simp only [binarySearch, hplace, hx, if_true]

theorem binarySearch_finds (hsorted : xs.Pairwise (· < ·)) (hx : x ∈ xs) :
    ∃ i, binarySearch xs x = .ok i ∧ xs.eraseIdx i = xs.erase x := by
  obtain ⟨i, hi, hxi⟩ := List.getElem_of_mem hx
  refine ⟨i, (binarySearch_eq_ok hsorted).mpr (hxi ▸ List.getElem?_eq_getElem hi), ?_⟩
  have hnodup : xs.Nodup := hsorted.imp fun h => ne_of_lt h
  rw [← hxi, hnodup.erase_getElem _ hi]

theorem binarySearch_misses (hx : x ∉ xs) : ∃ i, binarySearch xs x = .error i := by
  cases h : binarySearch xs x with
  | error i => exact ⟨i, rfl⟩
  | ok i => exact absurd (List.mem_of_getElem? (getElem?_of_binarySearch h)) hx

end BinarySearch
