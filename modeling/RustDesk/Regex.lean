import Mathlib.Computability.RegularExpressions

/-!
# Regular expressions as they are written

Character classes, bounded repetitions and `+` over the regular expressions of Mathlib, with
what each of them matches.
-/

namespace Regex

open RegularExpression

variable {α : Type*}

/-- A class of characters. -/
def oneOf (cs : List α) : RegularExpression α := cs.foldr (fun c r => char c + r) 0

/-- `r{1,n}` -/
def upTo (n : Nat) (r : RegularExpression α) : RegularExpression α := r * (1 + r) ^ (n - 1)

/-- `r+` -/
def many (r : RegularExpression α) : RegularExpression α := r * r.star

variable {cs : List α} {r : RegularExpression α} {x : List α}

theorem mem_oneOf : x ∈ (oneOf cs).matches' ↔ ∃ c ∈ cs, x = [c] := by
  induction cs with
  | nil => exact iff_of_false (Set.notMem_empty x) (by simp)
  | cons c cs ih =>
    rw [oneOf, List.foldr_cons, matches'_add, Language.mem_add, matches'_char, List.exists_mem_cons_iff]
    exact or_congr Iff.rfl ih

/-- At most `n` characters of a class. -/
theorem mem_pow_oneOf (n : Nat) :
    x ∈ ((1 + oneOf cs) ^ n).matches' ↔ x.length ≤ n ∧ ∀ c ∈ x, c ∈ cs := by
  induction n generalizing x with
  | zero =>
    rw [matches'_pow, pow_zero, Language.mem_one, Nat.le_zero, List.length_eq_zero_iff]
    constructor
    · rintro rfl
      exact ⟨rfl, by simp⟩
    · exact fun h => h.1
  | succ n ih =>
    rw [matches'_pow, pow_succ', Language.mem_mul, matches'_add, matches'_epsilon]
    simp only [← matches'_epsilon, ← matches'_add, ← matches'_pow, ih]
    constructor
    · rintro ⟨a, ha, b, ⟨hlen, hb⟩, rfl⟩
      rw [matches'_add, Language.mem_add, matches'_epsilon, Language.mem_one, mem_oneOf] at ha
      rcases ha with rfl | ⟨c, hc, rfl⟩
      · exact ⟨by simp only [List.nil_append]; omega, hb⟩
      · refine ⟨by simp only [List.length_append, List.length_singleton]; omega, ?_⟩
        intro d hd
        rcases List.mem_append.mp hd with hd | hd
        · exact List.mem_singleton.mp hd ▸ hc
        · exact hb d hd
    · rintro ⟨hlen, hall⟩
      cases x with
      | nil =>
        refine ⟨[], .inl rfl, [], ⟨Nat.zero_le n, by simp⟩, rfl⟩
      | cons c x =>
        refine ⟨[c], .inr (mem_oneOf.mpr ⟨c, hall c List.mem_cons_self, rfl⟩), x, ⟨?_, ?_⟩, rfl⟩
        · exact Nat.le_of_succ_le_succ hlen
        · exact fun d hd => hall d (List.mem_cons_of_mem c hd)

theorem mem_upTo_oneOf {n : Nat} :
    x ∈ (upTo (n + 1) (oneOf cs)).matches' ↔ x ≠ [] ∧ x.length ≤ n + 1 ∧ ∀ c ∈ x, c ∈ cs := by
  rw [upTo, Nat.add_sub_cancel, matches'_mul, Language.mem_mul]
  simp only [mem_oneOf, mem_pow_oneOf]
  constructor
  · rintro ⟨_, ⟨c, hc, rfl⟩, b, ⟨hlen, hb⟩, rfl⟩
    refine ⟨by simp, by simp only [List.length_append, List.length_singleton]; omega, ?_⟩
    intro d hd
    rcases List.mem_append.mp hd with hd | hd
    · exact List.mem_singleton.mp hd ▸ hc
    · exact hb d hd
  · rintro ⟨hne, hlen, hall⟩
    cases x with
    | nil => exact absurd rfl hne
    | cons c x =>
      refine ⟨[c], ⟨c, hall c List.mem_cons_self, rfl⟩, x, ⟨Nat.le_of_succ_le_succ hlen, ?_⟩, rfl⟩
      exact fun d hd => hall d (List.mem_cons_of_mem c hd)

theorem mem_many : x ∈ (many r).matches' ↔
    ∃ y ∈ r.matches', ∃ ys : List (List α), (∀ z ∈ ys, z ∈ r.matches') ∧ x = y ++ ys.flatten := by
  rw [many, matches'_mul, matches'_star, Language.mem_mul]
  constructor
  · rintro ⟨y, hy, _, ⟨ys, rfl, hys⟩, rfl⟩
    exact ⟨y, hy, ys, hys, rfl⟩
  · rintro ⟨y, hy, ys, hys, rfl⟩
    exact ⟨y, hy, ys.flatten, ⟨ys, rfl, hys⟩, rfl⟩

theorem mem_many_of_mem (h : x ∈ r.matches') : x ∈ (many r).matches' :=
  mem_many.mpr ⟨x, h, [], by simp, by simp⟩

theorem mem_many_cons {y : List α} (hy : y ∈ r.matches') (hx : x ∈ (many r).matches') :
    y ++ x ∈ (many r).matches' := by
  obtain ⟨z, hz, zs, hzs, rfl⟩ := mem_many.mp hx
  refine mem_many.mpr ⟨y, hy, z :: zs, ?_, rfl⟩
  intro w hw
  rcases List.mem_cons.mp hw with rfl | hw
  · exact hz
  · exact hzs w hw

/-- One or more characters of a class. -/
theorem mem_many_oneOf (hne : x ≠ []) (h : ∀ c ∈ x, c ∈ cs) : x ∈ (many (oneOf cs)).matches' := by
  induction x with
  | nil => exact absurd rfl hne
  | cons c x ih =>
    have hc : [c] ∈ (oneOf cs).matches' := mem_oneOf.mpr ⟨c, h c List.mem_cons_self, rfl⟩
    by_cases hx : x = []
    · subst hx
      exact mem_many_of_mem hc
    · exact mem_many_cons hc (ih hx fun d hd => h d (List.mem_cons_of_mem c hd))

end Regex
