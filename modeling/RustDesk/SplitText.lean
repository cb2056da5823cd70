import Mathlib.Data.List.Basic

/-!
# Text split at a separator

What `List.splitOn` takes apart has the elements of the text and not the separator; what
`List.intercalate` puts together has the elements of the parts, and the separator.
-/

namespace SplitText

variable {α : Type*} {sep c : α} {p seg : List α} {segs : List (List α)}

theorem notMem_of_mem_splitOn [DecidableEq α] (h : seg ∈ p.splitOn sep) : sep ∉ seg := by
  induction p generalizing seg with
  | nil =>
    rw [List.splitOn_nil, List.mem_singleton] at h
    simp [h]
  | cons c p ih =>
    rw [List.splitOn_cons_eq_if_modifyHead] at h
    split_ifs at h with hc
    · rcases List.mem_cons.mp h with rfl | h
      · exact List.not_mem_nil
      · exact ih h
    · cases hp : p.splitOn sep with
      | nil => exact absurd hp (List.splitOn_ne_nil _ _)
      | cons first rest =>
        rw [hp] at h
        rcases List.mem_cons.mp h with rfl | h
        · have hfirst := ih (hp ▸ List.mem_cons_self)
          simp only [List.mem_cons, not_or]
          exact ⟨fun heq => hc (by simp [← heq]), hfirst⟩
        · exact ih (hp ▸ List.mem_cons_of_mem first h)

theorem mem_intercalate (h : c ∈ [sep].intercalate segs) : c = sep ∨ ∃ seg ∈ segs, c ∈ seg := by
  induction segs with
  | nil => simp at h
  | cons s segs ih =>
    rcases segs with _ | ⟨t, segs⟩
    · simp only [List.intercalate_singleton] at h
      exact .inr ⟨s, List.mem_cons_self, h⟩
    · rw [List.intercalate_cons_cons, List.mem_append, List.mem_append, List.mem_singleton] at h
      rcases h with (h | h) | h
      · exact .inr ⟨s, List.mem_cons_self, h⟩
      · exact .inl h
      · rcases ih h with h | ⟨seg, hseg, hc⟩
        · exact .inl h
        · exact .inr ⟨seg, List.mem_cons_of_mem _ hseg, hc⟩

theorem infix_intercalate (sep : α) (hseg : seg ∈ segs) : seg <:+: [sep].intercalate segs := by
  induction segs with
  | nil => simp at hseg
  | cons s segs ih =>
    rcases segs with _ | ⟨t, segs⟩
    · obtain rfl := List.mem_singleton.mp hseg
      exact ⟨[], [], by simp⟩
    · rw [List.intercalate_cons_cons]
      rcases List.mem_cons.mp hseg with rfl | hseg
      · rw [List.append_assoc]
        exact (List.prefix_append seg _).isInfix
      · exact (ih hseg).trans (List.suffix_append _ _).isInfix

theorem infix_of_mem_splitOn [DecidableEq α] (hseg : seg ∈ p.splitOn sep) : seg <:+: p := by
  have h := infix_intercalate sep hseg
  rwa [List.intercalate_splitOn] at h

theorem mem_of_mem_splitOn [DecidableEq α] (hseg : seg ∈ p.splitOn sep) (hc : c ∈ seg) : c ∈ p :=
  (infix_of_mem_splitOn hseg).subset hc

theorem splitOn_flatMap [DecidableEq α] (hp : sep ∉ p) (hsegs : ∀ seg ∈ segs, sep ∉ seg) :
    (p ++ segs.flatMap (sep :: ·)).splitOn sep = p :: segs := by
  induction segs generalizing p with
  | nil => rw [List.flatMap_nil, List.append_nil, List.splitOn_eq_singleton hp]
  | cons s segs ih =>
    rw [List.flatMap_cons, List.cons_append, List.splitOn_append_cons_self_of_not_mem hp,
      ih (hsegs s List.mem_cons_self) fun seg hseg => hsegs seg (List.mem_cons_of_mem s hseg)]

/-- The text behind the last separator. -/
theorem exists_last (sep : α) (p : List α) : ∃ y, sep ∉ y ∧ (p = y ∨ ∃ t, p = t ++ sep :: y) := by
  induction p with
  | nil => exact ⟨[], List.not_mem_nil, .inl rfl⟩
  | cons c p ih =>
    obtain ⟨y, hy, rfl | ⟨t, rfl⟩⟩ := ih
    · by_cases hc : sep = c
      · exact ⟨p, hy, .inr ⟨[], by rw [hc]; rfl⟩⟩
      · exact ⟨c :: p, fun h => (List.mem_cons.mp h).elim hc hy, .inl rfl⟩
    · exact ⟨y, hy, .inr ⟨c :: t, rfl⟩⟩

end SplitText
