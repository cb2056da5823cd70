import RustDesk.History
import Mathlib.Data.List.Nodup

/-!
# Operations that take effect in one step

Operations run in steps that are interleaved. `abs` is the value they work on and
`completed` tells which of them have ended, in the order in which they did. When each step
leaves both as they are or ends one operation and applies it, the value is that of the
operations one after the other.
-/

namespace Linearization

open History

variable {σ κ α ι : Type*} {abs : σ → α} {completed : σ → List κ} {apply : κ → α → α}
  {s s' : σ} {k : κ} {start : α}

/-- A step of the operation `k` changes nothing or is the one where it takes effect. -/
def Point (abs : σ → α) (completed : σ → List κ) (apply : κ → α → α) (s s' : σ) (k : κ) : Prop :=
  (abs s' = abs s ∧ completed s' = completed s) ∨
  (k ∉ completed s ∧ abs s' = apply k (abs s) ∧ completed s' = completed s ++ [k])

/-- The value is the result of the completed operations, in their order. -/
structure Serial (abs : σ → α) (completed : σ → List κ) (apply : κ → α → α) (start : α) (s : σ) :
    Prop where
  nodup : (completed s).Nodup
  value : abs s = (completed s).foldl (fun a k => apply k a) start

theorem Point.serial (hp : Point abs completed apply s s' k)
    (h : Serial abs completed apply start s) : Serial abs completed apply start s' := by
  rcases hp with ⟨ha, hc⟩ | ⟨hk, ha, hc⟩
  · exact ⟨hc ▸ h.nodup, by rw [ha, hc, h.value]⟩
  · refine ⟨?_, ?_⟩
    · rw [hc, List.nodup_append]
      refine ⟨h.nodup, List.nodup_singleton k, ?_⟩
      intro x hx y hy hxy
      rw [hxy, List.mem_singleton.mp hy] at hx
      exact hk hx
    · rw [ha, hc, List.foldl_append, h.value]
      rfl

theorem prefix_run {step : σ → ι → σ} (hstep : ∀ s i, completed s <+: completed (step s i)) (s : σ)
    (is : List ι) : completed s <+: completed (run step s is) := by
  induction is generalizing s with
  | nil => exact List.prefix_rfl
  | cons i is ih => exact (hstep s i).trans (ih (step s i))

/-- Of two operations, the one that had completed when the other had not comes first. -/
theorem idxOf_lt_of_prefix [DecidableEq κ] {xs order : List κ} {a b : κ} (h : xs <+: order)
    (ha : a ∈ xs) (hb : b ∉ xs) : order.idxOf a < order.idxOf b := by
  obtain ⟨ys, rfl⟩ := h
  rw [List.idxOf_append_of_mem ha, List.idxOf_append_of_notMem hb]
  have := List.idxOf_lt_length_of_mem ha
  omega

theorem idxOf_lt_of_mem_tail [DecidableEq κ] {xs ys : List κ} {a c : κ}
    (h : (xs ++ c :: ys).Nodup) (ha : a ∈ ys) :
    (xs ++ c :: ys).idxOf c < (xs ++ c :: ys).idxOf a := by
  have hsplit : xs ++ c :: ys = (xs ++ [c]) ++ ys := by simp
  rw [hsplit] at h ⊢
  refine idxOf_lt_of_prefix (List.prefix_append _ _) (by simp) fun hmem => ?_
  exact (List.nodup_append.mp h).2.2 a hmem a ha rfl

end Linearization
