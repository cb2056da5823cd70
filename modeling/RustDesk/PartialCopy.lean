import Mathlib.Data.List.Basic

/-!
# Partial copies

A copy of a list that is made block by block: the copy agrees with the source up to a
position, and the next block is written there over whatever the copy holds. Nothing is
assumed of the part of the copy beyond the position, except that it is not longer than
the source.
-/

namespace PartialCopy

variable {α : Type*}

/-- The list with `data` put over it from position `pos`; a gap is filled with `fill`. -/
def overwrite (fill : α) (l : List α) (pos : Nat) (data : List α) : List α :=
  l.take pos ++ List.replicate (pos - l.length) fill ++ data ++ l.drop (pos + data.length)

theorem overwrite_length (fill : α) (l data : List α) :
    overwrite fill l l.length data = l ++ data := by
  simp [overwrite]

/-- `l` is a copy of `src` that is right up to `pos`. -/
structure UpTo (pos : Nat) (l src : List α) : Prop where
  take_eq : l.take pos = src.take pos
  pos_le : pos ≤ l.length
  length_le : l.length ≤ src.length

theorem upTo_nil (src : List α) : UpTo 0 [] src := ⟨rfl, Nat.zero_le 0, Nat.zero_le _⟩

theorem upTo_of_isPrefix {pos : Nat} {l src : List α} (h : l <+: src) (hpos : pos ≤ l.length) :
    UpTo pos l src := by
  obtain ⟨rest, rfl⟩ := h
  refine ⟨?_, hpos, by simp⟩
  rw [List.take_append_of_le_length hpos]

theorem UpTo.eq {pos : Nat} {l src : List α} (h : UpTo pos l src) (hpos : src.length ≤ pos) :
    l = src := by
  have hl : l.length ≤ pos := Nat.le_trans h.length_le hpos
  have htake := h.take_eq
  rwa [List.take_of_length_le hl, List.take_of_length_le hpos] at htake

/-- Writing the next block of the source moves the position past the block. -/
theorem UpTo.overwrite {pos room : Nat} {l src : List α} (fill : α) (h : UpTo pos l src) :
    UpTo (pos + ((src.drop pos).take room).length)
      (overwrite fill l pos ((src.drop pos).take room)) src := by
  set data := (src.drop pos).take room with hdata
  have hlen : data.length = min room (src.length - pos) := by simp [hdata]
  have hpos := h.pos_le
  have hsrc := h.length_le
  have hgap : pos - l.length = 0 := by omega
  have hhead : (l.take pos ++ data).length = pos + data.length := by simp; omega
  have heq : PartialCopy.overwrite fill l pos data = (l.take pos ++ data) ++ l.drop (pos + data.length) := by
    simp [PartialCopy.overwrite, hgap]
  constructor
  · have hsplit : src.take (pos + data.length) = src.take pos ++ data := by
      rw [List.take_add, hdata, List.length_take, List.length_drop]
      congr 1
      by_cases hroom : room ≤ src.length - pos
      · rw [Nat.min_eq_left hroom]
      · have hle : src.length - pos ≤ room := by omega
        rw [Nat.min_eq_right hle, List.take_of_length_le (by simp),
          List.take_of_length_le (by simpa using hle)]
    rw [heq, List.take_left' hhead, h.take_eq, hsplit]
  · rw [heq, List.length_append, hhead]
    omega
  · rw [heq, List.length_append, hhead, List.length_drop]
    omega

end PartialCopy
