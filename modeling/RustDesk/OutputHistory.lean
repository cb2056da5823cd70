import Mathlib.Data.List.Induction
import RustDesk.History
import RustDesk.OutputBuffer

/-!
# The bounds and the content of a terminal's memory

The stored lines are complete lines, each ended by its only newline, and perhaps one line
that is still growing. `append` continues the growing line, adds the lines of the new data
and drops the oldest lines while there is too much; on one way out it does not drop any.
What is stored is the end of what was appended, and `get_recent` returns an end of that.
-/

namespace RustDesk.OutputBuffer

open History Utf8Text

variable {b : OutputBuffer} {data : Bytes} {lines done : List Bytes} {last : Option Bytes}

def Terminated (line : Bytes) : Prop := ∃ body, newline ∉ body ∧ line = body ++ [newline]

def Unfinished (line : Bytes) : Prop := line ≠ [] ∧ newline ∉ line

/-- Complete lines, and a line that lacks its newline. -/
structure Lines (done : List Bytes) (last : Option Bytes) : Prop where
  terminated : ∀ line ∈ done, Terminated line
  unfinished : ∀ line ∈ last, Unfinished line

structure Shape (b : OutputBuffer) (done : List Bytes) (last : Option Bytes) : Prop
    extends Lines done last where
  lines : b.lines = done ++ last.toList
  size : b.totalSize = (b.lines.map List.length).sum
  incomplete : b.lastLineIncomplete = last.isSome

structure Bounded (b : OutputBuffer) : Prop where
  size : b.totalSize = (b.lines.map List.length).sum
  size_le : b.totalSize ≤ maxOutputBufferSize
  lines_le : b.lines.length ≤ maxBufferLines
  terminated : ∀ line ∈ b.lines.dropLast, Terminated line
  incomplete : b.lastLineIncomplete = true ↔
    ∃ line, b.lines.getLast? = some line ∧ line.getLast? ≠ some newline

theorem getLast?_terminated {line : Bytes} (h : Terminated line) :
    line.getLast? = some newline := by
  obtain ⟨body, -, rfl⟩ := h
  exact List.getLast?_concat

theorem getLast?_unfinished {line : Bytes} (h : Unfinished line) :
    line.getLast? ≠ some newline := by
  intro hlast
  exact h.2 (List.mem_of_getLast? hlast)

theorem Shape.bounded (h : Shape b done last) (hsize : b.totalSize ≤ maxOutputBufferSize)
    (hlines : b.lines.length ≤ maxBufferLines) : Bounded b := by
  refine ⟨h.size, hsize, hlines, ?_, ?_⟩
  · intro line hline
    rw [h.lines] at hline
    cases last with
    | none =>
      rw [Option.toList_none, List.append_nil] at hline
      exact h.terminated line (List.dropLast_subset _ hline)
    | some l =>
      rw [Option.toList_some, List.dropLast_concat] at hline
      exact h.terminated line hline
  · rw [h.incomplete, h.lines]
    cases last with
    | none =>
      simp only [Option.isSome_none, Bool.false_eq_true, Option.toList_none, List.append_nil,
        false_iff, not_exists, not_and, not_not]
      intro line hline
      exact getLast?_terminated (h.terminated line (List.mem_of_getLast? hline))
    | some l =>
      simp only [Option.isSome_some, Option.toList_some, List.getLast?_concat, true_iff]
      exact ⟨l, rfl, getLast?_unfinished (h.unfinished l rfl)⟩

/-! ### Adding the lines of new data -/

theorem pushLines_cons {e : Bool} {line : Bytes} {rest : List Bytes} (h : rest ≠ [])
    (b : OutputBuffer) :
    pushLines e (line :: rest) b = pushLines e rest (b.pushBack (line ++ [newline])) := by
  cases rest with
  | nil => exact absurd rfl h
  | cons next rest => rfl

theorem exists_first_newline (h : newline ∈ data) :
    ∃ body rest, newline ∉ body ∧ data = body ++ newline :: rest := by
  obtain ⟨body, rest, rfl, hbody⟩ := List.eq_append_cons_of_mem h
  exact ⟨body, rest, hbody, rfl⟩

def addLines (b : OutputBuffer) (done : List Bytes) (last : Option Bytes) : OutputBuffer :=
  { lines := b.lines ++ (done ++ last.toList)
    totalSize := b.totalSize + ((done ++ last.toList).map List.length).sum
    lastLineIncomplete := b.lastLineIncomplete || last.isSome }

theorem pushLines_splitOn (e : Bool) (data : Bytes) (b : OutputBuffer)
    (he : data ≠ [] → e = decide (data.getLast? = some newline)) :
    ∃ done last, Lines done last ∧ (done ++ last.toList).flatten = data ∧
      pushLines e (data.splitOn newline) b = b.addLines done last := by
  -- on the length of the data: the lines before the first newline are pushed first
  induction hn : data.length using Nat.strongRecOn generalizing data b with
  | ind n ih =>
    by_cases hmem : newline ∈ data
    · obtain ⟨body, rest, hbody, rfl⟩ := exists_first_newline hmem
      have hlen : rest.length < n := by
        rw [← hn, List.length_append, List.length_cons]
        omega
      have he' : rest ≠ [] → e = decide (rest.getLast? = some newline) := by
        intro hrest
        rw [he (by simp), List.getLast?_append, List.getLast?_cons]
        cases hlast : rest.getLast? with
        | none => exact absurd (List.getLast?_eq_none_iff.mp hlast) hrest
        | some x => rfl
      obtain ⟨done, last, hlines, hcontent, hpush⟩ := ih rest.length hlen rest
        (b.pushBack (body ++ [newline])) he' rfl
      refine ⟨(body ++ [newline]) :: done, last, ⟨?_, hlines.unfinished⟩, ?_, ?_⟩
      · intro line hline
        rcases List.mem_cons.mp hline with rfl | hline
        · exact ⟨body, hbody, rfl⟩
        · exact hlines.terminated line hline
      · rw [List.cons_append, List.flatten_cons, hcontent, List.append_assoc,
          List.singleton_append]
      · rw [List.splitOn_append_cons_self_of_not_mem hbody,
          pushLines_cons (List.splitOn_ne_nil _ _), hpush]
        simp [addLines, pushBack, Nat.add_assoc]
    · rw [List.splitOn_eq_singleton hmem]
      cases hdata : data with
      | nil =>
        refine ⟨[], none, ⟨by simp, by simp⟩, rfl, ?_⟩
        simp [pushLines, addLines]
      | cons byte tail =>
        rw [hdata] at hmem he
        have hfalse : e = false := by
          rw [he (List.cons_ne_nil _ _), decide_eq_false_iff_not]
          exact getLast?_unfinished ⟨List.cons_ne_nil _ _, hmem⟩
        refine ⟨[], some (byte :: tail), ⟨by simp, ?_⟩, by simp, ?_⟩
        · intro line hline
          obtain rfl := Option.some.inj hline
          exact ⟨List.cons_ne_nil _ _, hmem⟩
        · simp [pushLines, hfalse, addLines, pushBack]

/-! ### Dropping the oldest lines -/

theorem trim_spec (lines : List Bytes) (incomplete : Bool) (h : incomplete = true → lines ≠ []) :
    ∃ k, trim lines (lines.map List.length).sum incomplete =
        ⟨lines.drop k, ((lines.drop k).map List.length).sum,
          incomplete && !(lines.drop k).isEmpty⟩ ∧
      ((lines.drop k).map List.length).sum ≤ maxOutputBufferSize ∧
      (lines.drop k).length ≤ maxBufferLines := by
  induction lines generalizing incomplete with
  | nil =>
    have hfalse : incomplete = false := by
      cases incomplete with
      | false => rfl
      | true => exact absurd rfl (h rfl)
    refine ⟨0, ?_, by decide, by decide⟩
    simp [trim, hfalse]
  | cons removed lines ih =>
    by_cases hbig : ((removed :: lines).map List.length).sum > maxOutputBufferSize ∨
        (removed :: lines).length > maxBufferLines
    · have hsum : (if removed.length > ((removed :: lines).map List.length).sum then
          (lines.map List.length).sum else
          ((removed :: lines).map List.length).sum - removed.length) =
          (lines.map List.length).sum := by
        simp only [List.map_cons, List.sum_cons]
        split <;> omega
      obtain ⟨k, hk, hle⟩ := ih (if lines.isEmpty then false else incomplete) (by
        cases lines with
        | nil => simp
        | cons _ _ => exact fun _ => List.cons_ne_nil _ _)
      refine ⟨k + 1, ?_, hle⟩
      rw [trim, if_pos hbig, hsum, hk, List.drop_succ_cons]
      cases lines with
      | nil => simp
      | cons _ _ => rfl
    · rw [trim, if_neg hbig]
      rw [not_or, Nat.not_lt, Nat.not_lt] at hbig
      exact ⟨0, by simp, hbig⟩

theorem Lines.drop (h : Lines done last) (k : Nat) :
    ∃ (done' : List Bytes) (last' : Option Bytes), Lines done' last' ∧
      (done ++ last.toList).drop k = done' ++ last'.toList ∧
      last'.isSome = (last.isSome && !((done ++ last.toList).drop k).isEmpty) := by
  by_cases hk : k ≤ done.length
  · refine ⟨done.drop k, last, ⟨?_, h.unfinished⟩, List.drop_append_of_le_length hk, ?_⟩
    · intro line hline
      exact h.terminated line (List.mem_of_mem_drop hline)
    · rw [List.drop_append_of_le_length hk]
      cases last <;> simp
  · have hnil : (done ++ last.toList).drop k = [] := by
      rw [List.drop_eq_nil_iff, List.length_append]
      have hone : last.toList.length ≤ 1 := by cases last <;> simp
      omega
    exact ⟨[], none, ⟨by simp, by simp⟩, by rw [hnil]; rfl, by rw [hnil]; simp⟩

/-- What is left of the lines after the oldest were dropped, with the bounds. -/
structure Trimmed (b' : OutputBuffer) (done : List Bytes) (last : Option Bytes) (k : Nat) :
    Prop where
  kept : b'.lines = (done ++ last.toList).drop k
  shape : ∃ done' last', Shape b' done' last'
  size_le : b'.totalSize ≤ maxOutputBufferSize
  lines_le : b'.lines.length ≤ maxBufferLines

theorem trimmed_trim (h : Lines done last) :
    ∃ k, Trimmed (trim (done ++ last.toList) ((done ++ last.toList).map List.length).sum
      last.isSome) done last k := by
  obtain ⟨k, hk, hsize, hlen⟩ := trim_spec (done ++ last.toList) last.isSome (by
    cases last <;> simp)
  obtain ⟨done', last', hlines, hdrop, hsome⟩ := h.drop k
  refine ⟨k, ⟨by rw [hk], ⟨done', last', ⟨hlines, ?_, by rw [hk], ?_⟩⟩, ?_, ?_⟩⟩
  · rw [hk, hdrop]
  · rw [hk, hsome]
  · rw [hk]
    exact hsize
  · rw [hk]
    exact hlen

theorem trimmed_appendLines (h : Shape b done none) (data : Bytes) :
    ∃ done' last' k, Lines done' last' ∧
      (done' ++ last'.toList).flatten = b.lines.flatten ++ data ∧
      Trimmed (b.appendLines data) done' last' k := by
  obtain ⟨more, last, hlines, hcontent, hpush⟩ := pushLines_splitOn
    (data.getLast? = some newline) data b fun _ => rfl
  have hall : Lines (done ++ more) last := by
    refine ⟨?_, hlines.unfinished⟩
    intro line hline
    rcases List.mem_append.mp hline with hline | hline
    · exact h.terminated line hline
    · exact hlines.terminated line hline
  have hdone : b.lines = done := by rw [h.lines, Option.toList_none, List.append_nil]
  obtain ⟨k, hk⟩ := trimmed_trim hall
  refine ⟨done ++ more, last, k, hall, ?_, ?_⟩
  · rw [List.append_assoc, List.flatten_append, hcontent, hdone]
  · rw [appendLines, hpush]
    have hsize := h.size
    have hflag : b.lastLineIncomplete = false := h.incomplete
    simpa [addLines, hflag, hsize, hdone] using hk

/-! ### One append -/

theorem findIdx?_no_newline (h : newline ∉ data) : data.findIdx? (· = newline) = none := by
  rw [List.findIdx?_eq_none_iff]
  intro x hx
  rw [decide_eq_false_iff_not]
  rintro rfl
  exact h hx

theorem findIdx?_newline {body rest : Bytes} (h : newline ∉ body) :
    (body ++ newline :: rest).findIdx? (· = newline) = some body.length := by
  rw [List.findIdx?_append, findIdx?_no_newline h, List.findIdx?_cons]
  simp

theorem append_nil (b : OutputBuffer) : b.append [] = b := rfl

/-- The line goes on, and nothing is dropped. -/
theorem append_unended {l : Bytes} (h : Shape b done (some l)) (hd : newline ∉ data) :
    Shape (b.append data) done (some (l ++ data)) ∧
      (b.append data).totalSize = b.totalSize + data.length ∧
      (b.append data).lines.length = b.lines.length := by
  have hl := h.unfinished l rfl
  have hshape : Lines done (some (l ++ data)) := by
    refine ⟨h.terminated, ?_⟩
    intro line hline
    obtain rfl := Option.some.inj hline
    refine ⟨List.append_ne_nil_of_left_ne_nil hl.1 _, ?_⟩
    rw [List.mem_append, not_or]
    exact ⟨hl.2, hd⟩
  have hlines : b.lines = done ++ [l] := h.lines
  have hsize := h.size
  have hflag : b.lastLineIncomplete = true := h.incomplete
  by_cases hne : data = []
  · subst hne
    rw [append_nil, List.append_nil]
    exact ⟨h, by simp, rfl⟩
  · have happend : b.append data =
        { b with lines := done ++ [l ++ data], totalSize := b.totalSize + data.length } := by
      simp [append, hne, hflag, hlines, findIdx?_no_newline hd]
    rw [happend]
    refine ⟨⟨hshape, rfl, ?_, hflag⟩, rfl, by simp [hlines]⟩
    simp [hsize, hlines, Nat.add_assoc]

/-- Whatever else is appended, the lines are cut and the oldest go. -/
theorem append_trimmed (h : Shape b done last) (hne : data ≠ [])
    (hd : last.isSome = true → newline ∈ data) :
    ∃ done' last' k, Lines done' last' ∧
      (done' ++ last'.toList).flatten = b.lines.flatten ++ data ∧
      Trimmed (b.append data) done' last' k := by
  cases last with
  | none =>
    have happend : b.append data = b.appendLines data := by
      have hflag : b.lastLineIncomplete = false := h.incomplete
      simp [append, hne, hflag]
    rw [happend]
    exact trimmed_appendLines h data
  | some l =>
    obtain ⟨body, rest, hbody, rfl⟩ := exists_first_newline (hd rfl)
    have hl := h.unfinished l rfl
    have hlines : b.lines = done ++ [l] := h.lines
    have hflag : b.lastLineIncomplete = true := h.incomplete
    have happend : b.append (body ++ newline :: rest) =
        appendLines ⟨done ++ [l ++ (body ++ [newline])], b.totalSize + (body.length + 1), false⟩
          rest := by
      have htake : body.take (body.length + 1) = body := List.take_of_length_le (by omega)
      have hdrop : body.drop (body.length + 1) = [] := List.drop_of_length_le (by omega)
      simp [append, hflag, hlines, findIdx?_newline hbody, List.take_append, List.drop_append,
        htake, hdrop]
    have hmerged : Shape ⟨done ++ [l ++ (body ++ [newline])], b.totalSize + (body.length + 1),
        false⟩ (done ++ [l ++ (body ++ [newline])]) none := by
      refine ⟨⟨?_, by simp⟩, by simp, ?_, rfl⟩
      · intro line hline
        rcases List.mem_append.mp hline with hline | hline
        · exact h.terminated line hline
        · obtain rfl := List.mem_singleton.mp hline
          refine ⟨l ++ body, ?_, (List.append_assoc ..).symm⟩
          rw [List.mem_append, not_or]
          exact ⟨hl.2, hbody⟩
      · simp [h.size, hlines, Nat.add_assoc]
    rw [happend]
    obtain ⟨done', last', k, hlines', hcontent, htrim⟩ := trimmed_appendLines hmerged rest
    refine ⟨done', last', k, hlines', ?_, htrim⟩
    rw [hcontent]
    simp [hlines]

/-! ### Bounds -/

/-- A line that goes on without a newline stays within the size of the buffer. -/
def Fits (b : OutputBuffer) (data : Bytes) : Prop :=
  b.lastLineIncomplete = true → newline ∉ data →
    b.totalSize + data.length ≤ maxOutputBufferSize

structure Inv (b : OutputBuffer) : Prop where
  shape : ∃ done last, Shape b done last
  size_le : b.totalSize ≤ maxOutputBufferSize
  lines_le : b.lines.length ≤ maxBufferLines

theorem inv_empty : Inv {} := by
  refine ⟨⟨[], none, ⟨⟨by simp, by simp⟩, rfl, rfl, rfl⟩⟩, by decide, by decide⟩

theorem Inv.bounded (h : Inv b) : Bounded b := by
  obtain ⟨done, last, hshape⟩ := h.shape
  exact hshape.bounded h.size_le h.lines_le

theorem Trimmed.inv {b' : OutputBuffer} {k : Nat} (h : Trimmed b' done last k) : Inv b' :=
  ⟨h.shape, h.size_le, h.lines_le⟩

theorem inv_append (h : Inv b) (hfits : Fits b data) : Inv (b.append data) := by
  obtain ⟨done, last, hshape⟩ := h.shape
  by_cases hne : data = []
  · subst hne
    exact h
  · by_cases hgrows : last.isSome = true ∧ newline ∉ data
    · obtain ⟨l, rfl⟩ := Option.isSome_iff_exists.mp hgrows.1
      obtain ⟨hshape', hsize, hlen⟩ := append_unended hshape hgrows.2
      refine ⟨⟨done, _, hshape'⟩, ?_, ?_⟩
      · rw [hsize]
        exact hfits hshape.incomplete hgrows.2
      · rw [hlen]
        exact h.lines_le
    · have hd : last.isSome = true → newline ∈ data := by
        intro hsome
        by_contra hno
        exact hgrows ⟨hsome, hno⟩
      obtain ⟨_, _, _, _, _, htrim⟩ := append_trimmed hshape hne hd
      exact htrim.inv

theorem not_bounded_append (h : Inv b) (hfits : ¬Fits b data) : ¬Bounded (b.append data) := by
  obtain ⟨done, last, hshape⟩ := h.shape
  simp only [Fits, Classical.not_imp, Nat.not_le] at hfits
  obtain ⟨hflag, hd, hlarge⟩ := hfits
  rw [hshape.incomplete] at hflag
  obtain ⟨l, rfl⟩ := Option.isSome_iff_exists.mp hflag
  obtain ⟨-, hsize, -⟩ := append_unended hshape hd
  intro hbounded
  have hle := hbounded.size_le
  omega

/-- The bounds hold after every append exactly when no unfinished line outgrows the buffer. -/
theorem output_buffer_bounded (messages : List Bytes) :
    Throughout append Bounded {} messages ↔ Guarded append Fits {} messages :=
  throughout_iff_guarded (fun _ _ h hok => inv_append h hok) (fun _ h => h.bounded)
    (fun _ _ h hbad => not_bounded_append h hbad) inv_empty

/-- One byte, then as many as the buffer may hold, without a newline. -/
theorem output_buffer_outgrown :
    ¬Throughout append Bounded {} [[97], List.replicate maxOutputBufferSize 97] := by
  intro h
  have hinv : Inv (append {} [97]) := inv_append inv_empty fun hflag => absurd hflag (by decide)
  have hbounded : Bounded (append (append {} [97]) (List.replicate maxOutputBufferSize 97)) := h.2.2
  refine not_bounded_append hinv ?_ hbounded
  intro hfits
  have hle := hfits rfl fun hmem => absurd (List.eq_of_mem_replicate hmem) (by decide)
  rw [List.length_replicate] at hle
  exact absurd hle (by decide)

/-! ### Content -/

/-- However the append ends, the lines are the end of the old lines and the new data. -/
theorem append_spec (h : Shape b done last) (data : Bytes) :
    ∃ (done' : List Bytes) (last' : Option Bytes) (k : Nat), Lines done' last' ∧
      (done' ++ last'.toList).flatten = b.lines.flatten ++ data ∧
      (b.append data).lines = (done' ++ last'.toList).drop k ∧
      ∃ done'' last'', Shape (b.append data) done'' last'' := by
  by_cases hne : data = []
  · subst hne
    exact ⟨done, last, 0, h.toLines, by rw [h.lines, List.append_nil], h.lines, done, last, h⟩
  · by_cases hgrows : last.isSome = true ∧ newline ∉ data
    · obtain ⟨l, rfl⟩ := Option.isSome_iff_exists.mp hgrows.1
      obtain ⟨hshape, -, -⟩ := append_unended h hgrows.2
      refine ⟨done, some (l ++ data), 0, hshape.toLines, ?_, hshape.lines, done, _, hshape⟩
      rw [h.lines]
      simp
    · have hd : last.isSome = true → newline ∈ data := by
        intro hsome
        by_contra hno
        exact hgrows ⟨hsome, hno⟩
      obtain ⟨done', last', k, hlines, hcontent, htrim⟩ := append_trimmed h hne hd
      exact ⟨done', last', k, hlines, hcontent, htrim.kept, htrim.shape⟩

theorem flatten_drop_suffix (lines : List Bytes) (k : Nat) :
    (lines.drop k).flatten <:+ lines.flatten := by
  refine ⟨(lines.take k).flatten, ?_⟩
  rw [← List.flatten_append, List.take_append_drop]

theorem shape_empty : Shape {} [] none := ⟨⟨by simp, by simp⟩, rfl, rfl, rfl⟩

theorem appendAll_concat (messages : List Bytes) (data : Bytes) :
    appendAll b (messages ++ [data]) = (appendAll b messages).append data := by
  rw [appendAll, List.foldl_append]
  rfl

/-- What is stored is the end of what was appended. -/
theorem appendAll_stored (messages : List Bytes) :
    (∃ done last, Shape (appendAll {} messages) done last) ∧
      (appendAll {} messages).lines.flatten <:+ messages.flatten := by
  induction messages using List.reverseRecOn with
  | nil => exact ⟨⟨[], none, shape_empty⟩, List.suffix_rfl⟩
  | append_singleton messages data ih =>
    obtain ⟨⟨done, last, hshape⟩, front, hfront⟩ := ih
    obtain ⟨done', last', k, -, hcontent, hkept, hshape'⟩ := append_spec hshape data
    rw [appendAll_concat]
    refine ⟨hshape', ?_⟩
    rw [hkept]
    refine (flatten_drop_suffix _ k).trans ?_
    rw [hcontent]
    refine ⟨front, ?_⟩
    rw [List.flatten_append, ← hfront]
    simp

/-- Whole lines, as many of the newest as fit. -/
def WholeLines (lines : List Bytes) (maxBytes : Nat) (recent : Bytes) : Prop :=
  ∃ older newer, lines = older ++ newer ∧ recent = newer.flatten ∧
    ∀ line ∈ older.getLast?, maxBytes < line.length + recent.length

/-- The end of a line that is too long, from a character on. -/
structure LineEnd (line : Bytes) (maxBytes : Nat) (recent : Bytes) : Prop where
  suffix : recent <:+ line
  length : maxBytes ≤ recent.length + 3
  empty : recent = [] → maxBytes ≤ 3 ∧
    ∀ byte ∈ line.drop (line.length - maxBytes), IsContinuation byte

theorem Shape.ne_nil (h : Shape b done last) : ∀ line ∈ b.lines, line ≠ [] := by
  rw [h.lines]
  intro line hline
  rcases List.mem_append.mp hline with hline | hline
  · obtain ⟨body, -, rfl⟩ := h.terminated line hline
    simp
  · exact (h.unfinished line (Option.mem_toList.mp hline)).1

theorem Lines.terminated_take (h : Lines done last) {k : Nat}
    (hk : (done ++ last.toList).drop k ≠ []) :
    ∀ line ∈ (done ++ last.toList).take k, Terminated line := by
  have hlt : k < (done ++ last.toList).length := by
    by_contra hge
    exact hk (List.drop_of_length_le (Nat.le_of_not_lt hge))
  have hone : last.toList.length ≤ 1 := by cases last <;> simp
  rw [List.length_append] at hlt
  intro line hline
  rw [List.take_append_of_le_length (by omega)] at hline
  exact h.terminated line (List.mem_of_mem_take hline)

theorem Shape.terminated_before (h : Shape b done last) {l₁ l₂ : List Bytes}
    (hsplit : b.lines = l₁ ++ l₂) (hne : l₂ ≠ []) : ∀ line ∈ l₁, Terminated line := by
  have hall := h.lines
  have htake : l₁ = (done ++ last.toList).take l₁.length := by
    rw [← hall, hsplit, List.take_left]
  have hdrop : (done ++ last.toList).drop l₁.length = l₂ := by
    rw [← hall, hsplit, List.drop_left]
  rw [htake]
  exact h.toLines.terminated_take (by rw [hdrop]; exact hne)

/-- The scan over lines that are not empty, from the second line on or from one that fits. -/
theorem collectRecent_spec {maxBytes : Nat} (lines : List Bytes) (size : Nat)
    (chunks : List Bytes) (hsize : size = chunks.flatten.length) (hle : size ≤ maxBytes)
    (hne : ∀ line ∈ lines, line ≠ [])
    (hfits : size ≠ 0 ∨ ∀ newest ∈ lines.head?, newest.length ≤ maxBytes) :
    ∃ newer older, lines = newer ++ older ∧
      collectRecent maxBytes lines size chunks = newer.reverse ++ chunks ∧
      (newer.reverse ++ chunks).flatten.length ≤ maxBytes ∧
      ∀ line ∈ older.head?, maxBytes < line.length + (newer.reverse ++ chunks).flatten.length := by
  induction lines generalizing size chunks with
  | nil =>
    refine ⟨[], [], rfl, rfl, ?_, by simp⟩
    rw [List.reverse_nil, List.nil_append, ← hsize]
    exact hle
  | cons line lines ih =>
    by_cases hbig : size + line.length > maxBytes
    · have hno : ¬(size = 0 ∧ line.length > maxBytes) := by
        rintro ⟨hzero, hlong⟩
        rcases hfits with hpos | hfits
        · exact hpos hzero
        · exact Nat.not_le.mpr hlong (hfits line rfl)
      refine ⟨[], line :: lines, rfl, ?_, ?_, ?_⟩
      · rw [collectRecent, if_pos hbig, if_neg hno]
        rfl
      · rw [List.reverse_nil, List.nil_append, ← hsize]
        exact hle
      · intro l hl
        obtain rfl := Option.some.inj hl
        rw [List.reverse_nil, List.nil_append, ← hsize]
        omega
    · have hpos : size + line.length ≠ 0 := by
        have := List.length_pos_iff.mpr (hne line List.mem_cons_self)
        omega
      obtain ⟨newer, older, rfl, hscan, hlen, hmore⟩ := ih (size + line.length) (line :: chunks)
        (by rw [List.flatten_cons, List.length_append, ← hsize, Nat.add_comm]) (by omega)
        (fun l hl => hne l (List.mem_cons_of_mem _ hl)) (.inl hpos)
      refine ⟨line :: newer, older, rfl, ?_, ?_, ?_⟩
      · rw [collectRecent, if_neg hbig, hscan]
        simp
      · simpa using hlen
      · simpa using hmore

theorem getRecent_whole (hne : ∀ line ∈ b.lines, line ≠ []) {maxBytes : Nat}
    (hfits : ∀ newest ∈ b.lines.getLast?, newest.length ≤ maxBytes) :
    WholeLines b.lines maxBytes (b.getRecent maxBytes) ∧
      (b.getRecent maxBytes).length ≤ maxBytes := by
  by_cases hzero : maxBytes = 0
  · subst hzero
    have hnil : b.lines = [] := by
      cases hlast : b.lines.getLast? with
      | none => exact List.getLast?_eq_none_iff.mp hlast
      | some newest =>
        have hlen := hfits newest hlast
        exact absurd (List.eq_nil_of_length_eq_zero (Nat.le_zero.mp hlen))
          (hne newest (List.mem_of_getLast? hlast))
    exact ⟨⟨[], [], hnil, rfl, by simp⟩, Nat.le_refl 0⟩
  · obtain ⟨newer, older, hlines, hscan, hlen, hmore⟩ := collectRecent_spec
      b.lines.reverse 0 [] rfl (Nat.zero_le maxBytes)
      (fun line hline => hne line (List.mem_reverse.mp hline))
      (.inr (by rw [List.head?_reverse]; exact hfits))
    have hrecent : b.getRecent maxBytes = newer.reverse.flatten := by
      rw [getRecent, if_neg hzero, hscan, List.append_nil]
    rw [List.append_nil] at hlen hmore
    refine ⟨⟨older.reverse, newer.reverse, ?_, hrecent, ?_⟩, by rw [hrecent]; exact hlen⟩
    · rw [← List.reverse_append, ← hlines, List.reverse_reverse]
    · rw [List.getLast?_reverse, hrecent]
      exact hmore

/-! ### The end of a line -/

theorem alignTail_suffix (skips : Nat) (tail : Bytes) : alignTail skips tail <:+ tail := by
  fun_induction alignTail skips tail with
  | case1 tail => exact List.suffix_rfl
  | case2 skips => exact List.suffix_rfl
  | case3 skips byte tail hcont ih => exact ih.trans (List.suffix_cons _ _)
  | case4 skips byte tail hcont => exact List.suffix_rfl

theorem alignTail_length (skips : Nat) (tail : Bytes) :
    tail.length ≤ (alignTail skips tail).length + skips := by
  fun_induction alignTail skips tail with
  | case1 tail => omega
  | case2 skips => simp
  | case3 skips byte tail hcont ih =>
    rw [List.length_cons]
    omega
  | case4 skips byte tail hcont => omega

theorem alignTail_eq_nil {skips : Nat} {tail : Bytes} (h : alignTail skips tail = []) :
    ∀ byte ∈ tail, IsContinuation byte := by
  fun_induction alignTail skips tail with
  | case1 tail => simp [h]
  | case2 skips => simp
  | case3 skips byte tail hcont ih =>
    intro x hx
    rcases List.mem_cons.mp hx with rfl | hx
    · exact hcont
    · exact ih h x hx
  | case4 skips byte tail hcont => exact absurd h (List.cons_ne_nil _ _)

theorem alignTail_text {rest : Bytes} (hrest : IsText rest) (skips : Nat) :
    alignTail skips rest = rest := by
  cases skips with
  | zero => rfl
  | succ skips =>
    cases rest with
    | nil => rfl
    | cons byte rest => rw [alignTail, if_neg (not_isContinuation_head hrest)]

theorem alignTail_continuations {conts rest : Bytes} (hconts : ∀ x ∈ conts, IsContinuation x)
    (hrest : IsText rest) (skips : Nat) (hle : conts.length ≤ skips) :
    alignTail skips (conts ++ rest) = rest := by
  induction conts generalizing skips with
  | nil => exact alignTail_text hrest skips
  | cons byte conts ih =>
    cases skips with
    | zero => exact absurd hle (by simp)
    | succ skips =>
      rw [List.cons_append, alignTail, if_pos (hconts byte List.mem_cons_self)]
      exact ih (fun x hx => hconts x (List.mem_cons_of_mem _ hx)) skips (Nat.le_of_succ_le_succ hle)

theorem getRecent_long {older : List Bytes} {newest : Bytes} (hlines : b.lines = older ++ [newest])
    {maxBytes : Nat} (hlong : maxBytes < newest.length) (hpos : maxBytes ≠ 0) :
    b.getRecent maxBytes = alignTail 3 (newest.drop (newest.length - maxBytes)) := by
  have hreverse : b.lines.reverse = newest :: older.reverse := by rw [hlines]; simp
  rw [getRecent, if_neg hpos, hreverse, collectRecent, if_pos (by omega), if_pos ⟨rfl, hlong⟩]
  dsimp only
  split
  · rename_i hempty
    rw [List.isEmpty_iff.mp hempty]
    rfl
  · simp

theorem lineEnd_getRecent {older : List Bytes} {newest : Bytes}
    (hlines : b.lines = older ++ [newest]) {maxBytes : Nat} (hlong : maxBytes < newest.length) :
    LineEnd newest maxBytes (b.getRecent maxBytes) ∧ (b.getRecent maxBytes).length ≤ maxBytes := by
  by_cases hpos : maxBytes = 0
  · subst hpos
    refine ⟨⟨List.nil_suffix, Nat.zero_le _, fun _ => ⟨Nat.zero_le _, ?_⟩⟩, Nat.le_refl 0⟩
    simp
  · rw [getRecent_long hlines hlong hpos]
    have hsuffix := alignTail_suffix 3 (newest.drop (newest.length - maxBytes))
    have hlength := alignTail_length 3 (newest.drop (newest.length - maxBytes))
    have htail : (newest.drop (newest.length - maxBytes)).length = maxBytes := by
      rw [List.length_drop]
      omega
    refine ⟨⟨hsuffix.trans (List.drop_suffix _ _), by omega, ?_⟩, ?_⟩
    · intro hnil
      refine ⟨?_, alignTail_eq_nil hnil⟩
      rw [hnil, List.length_nil] at hlength
      omega
    · exact Nat.le_trans hsuffix.length_le (Nat.le_of_eq htail)

/-! ### Text -/

/-- An append that leaves nothing stored ends between two characters. -/
def EmptiedBetweenCharacters (messages : List Bytes) : Prop :=
  ∀ front back, messages = front ++ back → (appendAll {} front).lines = [] →
    fromUtf8 back.flatten = true

/-- Text goes on behind complete lines. -/
theorem isText_of_terminated {rest : Bytes} (hdone : ∀ line ∈ done, Terminated line)
    (h : IsText (done.flatten ++ rest)) : IsText rest := by
  induction done with
  | nil => exact h
  | cons line done ih =>
    obtain ⟨body, -, rfl⟩ := hdone line List.mem_cons_self
    apply ih (fun l hl => hdone l (List.mem_cons_of_mem _ hl))
    rw [List.flatten_cons, List.append_assoc] at h
    exact isText_of_ascii (show newline &&& 0x80 = 0 by decide) h

/-- The stored lines and what is still to come are text. -/
theorem isText_stored (messages back : List Bytes) (htext : IsText (messages ++ back).flatten)
    (hempty : EmptiedBetweenCharacters (messages ++ back)) :
    IsText ((appendAll {} messages).lines.flatten ++ back.flatten) := by
  induction messages using List.reverseRecOn generalizing back with
  | nil => exact htext
  | append_singleton messages data ih =>
    obtain ⟨⟨done, last, hshape⟩, -⟩ := appendAll_stored messages
    obtain ⟨done', last', k, hlines, hcontent, hkept, -⟩ := append_spec hshape data
    have hstored := ih (data :: back) (by simpa using htext) (by simpa using hempty)
    rw [appendAll_concat, hkept]
    by_cases hnil : (done' ++ last'.toList).drop k = []
    · rw [hnil, List.flatten_nil, List.nil_append]
      refine (fromUtf8_iff _).mp (hempty (messages ++ [data]) back rfl ?_)
      rw [appendAll_concat, hkept, hnil]
    · apply isText_of_terminated (hlines.terminated_take hnil)
      rw [← List.append_assoc, ← List.flatten_append, List.take_append_drop, hcontent]
      simpa using hstored

theorem isText_getRecent (h : Shape b done last) (htext : IsText b.lines.flatten)
    (maxBytes : Nat) : IsText (b.getRecent maxBytes) := by
  cases hlast : b.lines.getLast? with
  | none =>
    have hnil := List.getLast?_eq_none_iff.mp hlast
    refine ⟨[], ?_⟩
    rw [getRecent, hnil]
    split <;> rfl
  | some newest =>
    obtain ⟨older, hlines⟩ := List.getLast?_eq_some_iff.mp hlast
    by_cases hlong : maxBytes < newest.length
    · by_cases hpos : maxBytes = 0
      · exact ⟨[], by rw [getRecent, if_pos hpos]; rfl⟩
      · rw [getRecent_long hlines hlong hpos]
        have hnewest : IsText newest := by
          apply isText_of_terminated (h.terminated_before hlines (by simp))
          rw [hlines] at htext
          simpa using htext
        rw [← List.take_append_drop (newest.length - maxBytes) newest] at hnewest
        obtain ⟨conts, rest, hcut, hlen, hconts, hrest⟩ := hnewest.suffix
        rw [hcut, alignTail_continuations hconts hrest 3 hlen]
        exact hrest
    · have hfits : ∀ l ∈ b.lines.getLast?, l.length ≤ maxBytes := by
        intro l hl
        rw [hlast] at hl
        obtain rfl := Option.some.inj hl
        exact Nat.le_of_not_lt hlong
      obtain ⟨⟨l₁, l₂, hsplit, hrecent, -⟩, -⟩ := getRecent_whole h.ne_nil hfits
      rw [hrecent]
      by_cases hne : l₂ = []
      · exact ⟨[], by rw [hne]; rfl⟩
      · apply isText_of_terminated (h.terminated_before hsplit hne)
        rw [← List.flatten_append, ← hsplit]
        exact htext

theorem WholeLines.suffix {maxBytes : Nat} {recent : Bytes}
    (h : WholeLines lines maxBytes recent) : recent <:+ lines.flatten := by
  obtain ⟨older, newer, rfl, rfl, -⟩ := h
  exact ⟨older.flatten, List.flatten_append.symm⟩

/-- What is remembered and what is shown of it, for every sequence of appends. -/
theorem output_buffer_content (messages : List Bytes) (maxBytes : Nat) :
    (appendAll {} messages).lines.flatten <:+ messages.flatten ∧
    (appendAll {} messages).getRecent maxBytes <:+ (appendAll {} messages).lines.flatten ∧
    ((appendAll {} messages).getRecent maxBytes).length ≤ maxBytes ∧
    ((∀ newest ∈ (appendAll {} messages).lines.getLast?, newest.length ≤ maxBytes) →
      WholeLines (appendAll {} messages).lines maxBytes
        ((appendAll {} messages).getRecent maxBytes)) ∧
    (∀ newest ∈ (appendAll {} messages).lines.getLast?, maxBytes < newest.length →
      LineEnd newest maxBytes ((appendAll {} messages).getRecent maxBytes)) ∧
    (fromUtf8 messages.flatten = true → EmptiedBetweenCharacters messages →
      fromUtf8 ((appendAll {} messages).getRecent maxBytes) = true) := by
  obtain ⟨⟨done, last, hshape⟩, hstored⟩ := appendAll_stored messages
  have hrecent : (appendAll {} messages).getRecent maxBytes <:+
      (appendAll {} messages).lines.flatten ∧
      ((appendAll {} messages).getRecent maxBytes).length ≤ maxBytes := by
    by_cases hfits : ∀ newest ∈ (appendAll {} messages).lines.getLast?, newest.length ≤ maxBytes
    · obtain ⟨hwhole, hlen⟩ := getRecent_whole hshape.ne_nil hfits
      exact ⟨hwhole.suffix, hlen⟩
    · simp only [not_forall, Nat.not_le] at hfits
      obtain ⟨newest, hnewest, hlong⟩ := hfits
      obtain ⟨older, hlines⟩ := List.getLast?_eq_some_iff.mp hnewest
      obtain ⟨hend, hlen⟩ := lineEnd_getRecent hlines hlong
      refine ⟨hend.suffix.trans ?_, hlen⟩
      rw [hlines, List.flatten_concat]
      exact List.suffix_append _ _
  refine ⟨hstored, hrecent.1, hrecent.2, ?_, ?_, ?_⟩
  · intro hfits
    exact (getRecent_whole hshape.ne_nil hfits).1
  · intro newest hnewest hlong
    obtain ⟨older, hlines⟩ := List.getLast?_eq_some_iff.mp hnewest
    exact (lineEnd_getRecent hlines hlong).1
  · intro htext hempty
    rw [fromUtf8_iff] at htext ⊢
    have hall := isText_stored messages [] (by simpa using htext) (by simpa using hempty)
    rw [List.flatten_nil, List.append_nil] at hall
    exact isText_getRecent hshape hall maxBytes

/-- A line that is too long for the buffer is dropped, and the buffer forgets that it was
unfinished. -/
theorem append_outsized (hd : newline ∉ data) (hlarge : maxOutputBufferSize < data.length) :
    append {} data = {} := by
  have hne : data ≠ [] := by
    rintro rfl
    exact absurd hlarge (Nat.not_lt_zero _)
  have hlast : data.getLast? ≠ some newline := getLast?_unfinished ⟨hne, hd⟩
  simp [append, hne, appendLines, List.splitOn_eq_singleton hd, hlast, pushLines, pushBack, trim,
    hlarge]

/-- The two bytes of `é` come in two messages, the first behind a line that is too long. -/
def splitCharacter : List Bytes := [List.replicate maxOutputBufferSize 97 ++ [0xC3], [0xA9]]

theorem appendAll_splitCharacter : appendAll {} splitCharacter = ⟨[[0xA9]], 1, true⟩ := by
  have hmem : newline ∉ List.replicate maxOutputBufferSize 97 ++ [0xC3] := by
    rw [List.mem_append, not_or]
    exact ⟨fun h => absurd (List.eq_of_mem_replicate h) (by decide), by decide⟩
  rw [splitCharacter, appendAll, List.foldl_cons, append_outsized hmem (by simp)]
  rfl

theorem recent_output_split_character :
    fromUtf8 splitCharacter.flatten = true ∧
      fromUtf8 ((appendAll {} splitCharacter).getRecent 10) = false := by
  rw [appendAll_splitCharacter]
  refine ⟨?_, by decide⟩
  rw [fromUtf8_iff]
  refine ⟨List.replicate maxOutputBufferSize 'a' ++ ['é'], ?_⟩
  have hletter : String.utf8EncodeChar 'a' = [97] := by decide
  have haccent : String.utf8EncodeChar 'é' = [0xC3, 0xA9] := by decide
  rw [text, List.flatMap_append, List.flatMap_replicate, hletter, List.flatMap_singleton, haccent]
  simp [splitCharacter]

end RustDesk.OutputBuffer
