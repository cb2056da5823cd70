import Mathlib.Data.List.Nodup
import Mathlib.Data.List.MinMax

/-!
# The most frequent entry of a list

Entries are counted in the order in which they first occur. The leader is the first one
whose count is the greatest, so no entry occurs more often than it.
-/

namespace Plurality

variable {α : Type*} [DecidableEq α] {a b : α} {n : Nat} {cs : List (α × Nat)} {votes : List α}

/-- Count one more entry: the first pair with its name, or a new pair at the end. -/
def tally (b : α) : List (α × Nat) → List (α × Nat)
  | [] => [(b, 1)]
  | (a, n) :: cs => if a = b then (a, n + 1) :: cs else (a, n) :: tally b cs

def counts (votes : List α) : List (α × Nat) := votes.foldl (fun cs b => tally b cs) []

def leader (votes : List α) : Option α :=
  let top := ((counts votes).map Prod.snd).max?.getD 0
  ((counts votes).find? fun c => c.2 = top).map Prod.fst

theorem keys_tally (b : α) : ∀ cs : List (α × Nat), (tally b cs).map Prod.fst =
    if b ∈ cs.map Prod.fst then cs.map Prod.fst else cs.map Prod.fst ++ [b]
  | [] => by simp [tally]
  | (a, n) :: cs => by
    have ih := keys_tally b cs
    unfold tally
    split_ifs with hab hmem hmem
    · rfl
    · simp [hab] at hmem
    · have hb : b ∈ cs.map Prod.fst := by
        rw [List.map_cons, List.mem_cons] at hmem
        rcases hmem with h | h
        · exact absurd h.symm hab
        · exact h
      rw [if_pos hb] at ih
      simp only [List.map_cons, ih]
    · have hb : b ∉ cs.map Prod.fst := fun h => hmem (by simp [h])
      rw [if_neg hb] at ih
      simp only [List.map_cons, ih, List.cons_append]

theorem mem_tally_of_ne (h : a ≠ b) : ∀ cs : List (α × Nat), (a, n) ∈ tally b cs ↔ (a, n) ∈ cs
  | [] => by simp [tally, h]
  | (x, m) :: cs => by
    have ih := mem_tally_of_ne h cs
    unfold tally
    split_ifs with hx
    · subst hx
      simp [h]
    · simp [ih]

theorem mem_tally_self : ∀ cs : List (α × Nat), (cs.map Prod.fst).Nodup →
    ((b, n) ∈ tally b cs ↔ (∃ m, (b, m) ∈ cs ∧ n = m + 1) ∨ b ∉ cs.map Prod.fst ∧ n = 1)
  | [], _ => by simp [tally]
  | (x, m) :: cs, hnodup => by
    rw [List.map_cons, List.nodup_cons] at hnodup
    have ih := mem_tally_self cs hnodup.2
    unfold tally
    split_ifs with hx
    · subst hx
      have hno : ∀ k, (x, k) ∉ cs := fun k hk => hnodup.1 (List.mem_map.mpr ⟨(x, k), hk, rfl⟩)
      simp [hno]
    · rw [List.mem_cons, ih]
      simp [Ne.symm hx]

/-- The counts are those of the votes, each under one name. -/
structure Tallied (cs : List (α × Nat)) (votes : List α) : Prop where
  nodup : (cs.map Prod.fst).Nodup
  mem_iff : ∀ a n, (a, n) ∈ cs ↔ a ∈ votes ∧ n = votes.count a

theorem Tallied.mem_keys (h : Tallied cs votes) : a ∈ cs.map Prod.fst ↔ a ∈ votes := by
  rw [List.mem_map]
  constructor
  · rintro ⟨⟨x, n⟩, hx, rfl⟩
    exact ((h.mem_iff x n).mp hx).1
  · intro ha
    exact ⟨(a, votes.count a), (h.mem_iff _ _).mpr ⟨ha, rfl⟩, rfl⟩

theorem Tallied.tally (h : Tallied cs votes) (b : α) : Tallied (tally b cs) (votes ++ [b]) := by
  refine ⟨?_, fun a n => ?_⟩
  · rw [keys_tally]
    split_ifs with hb
    · exact h.nodup
    · rw [List.nodup_append]
      refine ⟨h.nodup, List.nodup_singleton b, ?_⟩
      intro x hx y hy hxy
      rw [hxy, List.mem_singleton.mp hy] at hx
      exact hb hx
  · by_cases hab : a = b
    · subst hab
      rw [mem_tally_self cs h.nodup, h.mem_keys]
      simp only [h.mem_iff, List.count_append, List.count_singleton_self]
      constructor
      · rintro (⟨m, ⟨-, rfl⟩, rfl⟩ | ⟨hno, rfl⟩)
        · simp
        · simp [List.count_eq_zero_of_not_mem hno]
      · rintro ⟨-, rfl⟩
        by_cases ha : a ∈ votes
        · exact .inl ⟨_, ⟨ha, rfl⟩, rfl⟩
        · exact .inr ⟨ha, by rw [List.count_eq_zero_of_not_mem ha]⟩
    · rw [mem_tally_of_ne hab, h.mem_iff]
      simp [hab, Ne.symm hab]

theorem tallied_counts (votes : List α) : Tallied (counts votes) votes := by
  induction votes using List.reverseRecOn with
  | nil => exact ⟨by simp [counts], by simp [counts]⟩
  | append_singleton votes b ih =>
    have h : counts (votes ++ [b]) = tally b (counts votes) := by
      simp [counts, List.foldl_append]
    rw [h]
    exact ih.tally b

theorem leader_nil : leader ([] : List α) = none := rfl

theorem exists_leader (h : votes ≠ []) :
    ∃ a ∈ votes, leader votes = some a ∧ ∀ b, votes.count b ≤ votes.count a := by
  have ht := tallied_counts votes
  obtain ⟨v, hv⟩ := List.exists_mem_of_ne_nil votes h
  have hmem : (v, votes.count v) ∈ counts votes := (ht.mem_iff _ _).mpr ⟨hv, rfl⟩
  obtain ⟨top, htop⟩ : ∃ top, ((counts votes).map Prod.snd).max? = some top := by
    apply Option.isSome_iff_exists.mp
    rw [List.isSome_max?_iff]
    exact List.ne_nil_of_mem (List.mem_map_of_mem hmem)
  obtain ⟨htopmem, htopmax⟩ := List.max?_eq_some_iff.mp htop
  obtain ⟨⟨a, n⟩, hfind⟩ : ∃ c, (counts votes).find? (fun c => c.2 = top) = some c := by
    obtain ⟨c, hc, hcn⟩ := List.mem_map.mp htopmem
    apply Option.isSome_iff_exists.mp
    rw [List.find?_isSome]
    exact ⟨c, hc, by simpa using hcn⟩
  obtain ⟨ha, rfl⟩ := (ht.mem_iff a n).mp (List.mem_of_find?_eq_some hfind)
  have hn : votes.count a = top := by simpa using List.find?_some hfind
  refine ⟨a, ha, ?_, fun b => ?_⟩
  · simp only [leader, htop, Option.getD_some, hfind, Option.map_some]
  · by_cases hb : b ∈ votes
    · have := htopmax _ (List.mem_map_of_mem ((ht.mem_iff b _).mpr ⟨hb, rfl⟩))
      rw [hn]
      exact this
    · rw [List.count_eq_zero_of_not_mem hb]
      exact Nat.zero_le _

end Plurality
