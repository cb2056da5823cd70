import RustDesk.Message
import RustDesk.Utf8Text

/-!
# Terminal output in whole characters

The reader thread of a terminal passes what it reads through `Utf8ChunkAccumulator`,
which holds back a trailing incomplete character until its other bytes arrive.
-/

namespace RustDesk

open Utf8Text

/-- The backward loop of `find_utf8_split_point`: `k` bytes lie behind the next one, and the
bytes are given last one first. -/
def splitScan (len : Nat) : Nat → Bytes → Nat
  | _, [] => len
  | k, b :: before =>
    if b &&& 0x80 = 0 then len
    else if b &&& 0xC0 = 0x80 then splitScan len (k + 1) before
    else
      match seqLen b with
      | none => len
      | some n => if k + 1 ≥ n then len else len - (k + 1)

def findUtf8SplitPoint (buf : Bytes) : Nat :=
  if buf.isEmpty then 0 else splitScan buf.length 0 (buf.reverse.take 3)

structure Utf8ChunkAccumulator where
  remainder : Bytes := []
  deriving Repr, DecidableEq

namespace Utf8ChunkAccumulator

def pushChunk (acc : Utf8ChunkAccumulator) (data : Bytes) :
    Utf8ChunkAccumulator × Option Bytes :=
  if data.isEmpty then (acc, none)
  else
    let hadRemainder := !acc.remainder.isEmpty
    let data := acc.remainder ++ data
    let split := findUtf8SplitPoint data
    if split = data.length then (⟨[]⟩, some data)
    -- bytes that are not text so far are passed on whole
    else if !hadRemainder && decide (split > 0) && !fromUtf8 (data.take split) then
      (⟨[]⟩, some data)
    else (⟨data.drop split⟩, if (data.take split).isEmpty then none else some (data.take split))

def finish (acc : Utf8ChunkAccumulator) : Utf8ChunkAccumulator × Option Bytes :=
  if acc.remainder.isEmpty then (acc, none) else (⟨[]⟩, some acc.remainder)

/-- The accumulator after a sequence of chunks, and what it emitted, oldest first. -/
def pushChunks : Utf8ChunkAccumulator → List Bytes → Utf8ChunkAccumulator × List Bytes
  | acc, [] => (acc, [])
  | acc, data :: chunks =>
    let (acc', out) := acc.pushChunk data
    let (acc'', outs) := acc'.pushChunks chunks
    (acc'', out.toList ++ outs)

end Utf8ChunkAccumulator

example : findUtf8SplitPoint [0x61, 0xE4, 0xB8] = 1 := by decide

namespace Utf8Chunks

open Utf8ChunkAccumulator

variable {acc : Utf8ChunkAccumulator}

/-! ### The split point -/

theorem splitScan_bounds (len : Nat) : ∀ (before : Bytes) (k : Nat), k + before.length ≤ 3 →
    splitScan len k before ≤ len ∧ len ≤ splitScan len k before + 3
  | [], k, _ => by simp [splitScan]
  | b :: before, k, hk => by
    rw [List.length_cons] at hk
    unfold splitScan
    split
    · omega
    · split
      · exact splitScan_bounds len before (k + 1) (by omega)
      · split
        · omega
        · split <;> omega

theorem findUtf8SplitPoint_bounds (buf : Bytes) :
    findUtf8SplitPoint buf ≤ buf.length ∧ buf.length ≤ findUtf8SplitPoint buf + 3 := by
  unfold findUtf8SplitPoint
  split
  · next h =>
    rw [List.isEmpty_iff] at h
    simp [h]
  · apply splitScan_bounds
    rw [List.length_take]
    omega

theorem splitScan_continuation (len : Nat) : ∀ (conts before : Bytes) (k : Nat),
    (∀ x ∈ conts, IsContinuation x) →
    splitScan len k (conts ++ before) = splitScan len (k + conts.length) before
  | [], before, k, _ => rfl
  | c :: conts, before, k, h => by
    obtain ⟨hc, hconts⟩ := List.forall_mem_cons.mp h
    rw [List.cons_append, splitScan, if_neg hc.and_ne_zero,
      if_pos (show c &&& 0xC0 = 0x80 from hc),
      splitScan_continuation len conts before (k + 1) hconts, List.length_cons]
    congr 1
    omega

/-- The scan behind a lead byte with fewer than three continuation bytes after it. -/
theorem findUtf8SplitPoint_append (front : Bytes) {b : UInt8} {held : Bytes}
    (hb : ¬ IsContinuation b) (ha : b &&& 0x80 ≠ 0) (hh : ∀ x ∈ held, IsContinuation x)
    (hl : held.length ≤ 2) :
    findUtf8SplitPoint (front ++ b :: held) =
      match seqLen b with
      | none => (front ++ b :: held).length
      | some n =>
        if held.length + 1 ≥ n then (front ++ b :: held).length else front.length := by
  have hr : ∃ before, (front ++ b :: held).reverse.take 3 = held.reverse ++ b :: before := by
    refine ⟨front.reverse.take (2 - held.length), ?_⟩
    rw [List.reverse_append, List.reverse_cons, List.append_assoc,
      List.take_append, List.length_reverse, List.take_of_length_le (by simp; omega),
      show 3 - held.length = (2 - held.length) + 1 by omega]
    rfl
  obtain ⟨before, hr⟩ := hr
  have hlen : (front ++ b :: held).length - (held.length + 1) = front.length := by
    simp
  unfold findUtf8SplitPoint
  rw [if_neg (by simp), hr, splitScan_continuation _ _ _ _ (by simpa using hh), splitScan,
    if_neg ha, if_neg (show ¬ b &&& 0xC0 = 0x80 from hb), List.length_reverse, Nat.zero_add, hlen]

theorem findUtf8SplitPoint_continuations (front : Bytes) {conts : Bytes}
    (hh : ∀ x ∈ conts, IsContinuation x) (hl : conts.length = 3) :
    findUtf8SplitPoint (front ++ conts) = (front ++ conts).length := by
  have hne : front ++ conts ≠ [] := by
    intro h
    simp [(List.append_eq_nil_iff.mp h).2] at hl
  unfold findUtf8SplitPoint
  rw [if_neg (by simpa using hne), List.reverse_append,
    List.take_append_of_le_length (by simp [hl]), List.take_of_length_le (by simp [hl]),
    ← List.append_nil conts.reverse, splitScan_continuation _ _ _ _ (by simpa using hh)]
  rfl

theorem findUtf8SplitPoint_whole (front : Bytes) (c : Char) :
    findUtf8SplitPoint (front ++ String.utf8EncodeChar c) =
      (front ++ String.utf8EncodeChar c).length := by
  have he := encoded c
  generalize String.utf8EncodeChar c = bytes at he ⊢
  cases he with
  | ascii ha =>
    unfold findUtf8SplitPoint
    rw [if_neg (by simp), List.reverse_append, List.reverse_singleton, List.singleton_append,
      List.take_succ_cons, splitScan, if_pos ha]
  | @sequence b rest hlead hlen hrest =>
    obtain ⟨ha, hc, hn⟩ := hlead
    by_cases h3 : rest.length = 3
    · rw [show front ++ b :: rest = (front ++ [b]) ++ rest by simp]
      exact findUtf8SplitPoint_continuations _ hrest h3
    · rw [findUtf8SplitPoint_append front hc ha hrest (by omega), hn]
      exact if_pos (Nat.le_refl _)

theorem findUtf8SplitPoint_text (chars : List Char) :
    findUtf8SplitPoint (text chars) = (text chars).length := by
  rcases List.eq_nil_or_concat' chars with rfl | ⟨cs, c, rfl⟩
  · rfl
  · have h : text (cs ++ [c]) = text cs ++ String.utf8EncodeChar c := by simp [text]
    rw [h]
    exact findUtf8SplitPoint_whole _ _

theorem findUtf8SplitPoint_partial (front : Bytes) {held : Bytes} {c : Char} (hne : held ≠ [])
    (hp : held <+: String.utf8EncodeChar c)
    (hlt : held.length < (String.utf8EncodeChar c).length) :
    findUtf8SplitPoint (front ++ held) = front.length := by
  have he := encoded c
  generalize String.utf8EncodeChar c = bytes at he hp hlt
  cases he with
  | ascii ha =>
    have := List.length_pos_of_ne_nil hne
    simp only [List.length_singleton] at hlt
    omega
  | @sequence b rest hlead hlen hrest =>
    obtain ⟨ha, hc, hn⟩ := hlead
    obtain _ | ⟨b', held⟩ := held
    · exact absurd rfl hne
    · obtain ⟨rfl, hheld⟩ := List.cons_prefix_cons.mp hp
      rw [List.length_cons, List.length_cons] at hlt
      have hcont : ∀ x ∈ held, IsContinuation x := fun x hx => hrest x (hheld.subset hx)
      rw [findUtf8SplitPoint_append front hc ha hcont (by omega), hn]
      exact if_neg (by omega)

/-! ### One chunk -/

theorem pushChunk_lossless (acc : Utf8ChunkAccumulator) (data : Bytes) :
    (acc.pushChunk data).2.getD [] ++ (acc.pushChunk data).1.remainder =
      acc.remainder ++ data := by
  unfold pushChunk
  dsimp only
  split
  · next h => simp [List.isEmpty_iff.mp h]
  · generalize acc.remainder ++ data = all
    split
    · simp
    · split
      · simp
      · split
        · next h =>
          have h0 := List.take_append_drop (findUtf8SplitPoint all) all
          rw [List.isEmpty_iff.mp h] at h0
          simpa using h0
        · simp

theorem pushChunk_remainder (h : acc.remainder.length ≤ 3) (data : Bytes) :
    (acc.pushChunk data).1.remainder.length ≤ 3 := by
  unfold pushChunk
  dsimp only
  split
  · exact h
  · generalize acc.remainder ++ data = all
    have hb := findUtf8SplitPoint_bounds all
    split
    · simp
    · split
      · simp
      · rw [List.length_drop]
        omega

/-- One chunk of a text: what is emitted is text, and what is held back is the start of the
character that the rest of the stream goes on with. -/
theorem pushChunk_text {data rest : Bytes} {todo : List Char}
    (h : acc.remainder ++ data ++ rest = text todo) (hp : Partial acc.remainder todo) :
    (∀ out ∈ (acc.pushChunk data).2, IsText out) ∧
      ∃ todo', (acc.pushChunk data).1.remainder ++ rest = text todo' ∧
        Partial (acc.pushChunk data).1.remainder todo' := by
  unfold pushChunk
  dsimp only
  split
  · next hd =>
    rw [List.isEmpty_iff.mp hd, List.append_nil] at h
    exact ⟨by simp, todo, h, hp⟩
  · generalize acc.remainder ++ data = all at h ⊢
    obtain ⟨done, todo', held, -, rfl, hrest, hpart⟩ := cut_text todo all rest h
    by_cases hh : held = []
    · subst hh
      rw [List.append_nil, findUtf8SplitPoint_text, if_pos rfl]
      refine ⟨?_, todo', hrest, .inl rfl⟩
      simpa using isText_text done
    · have hsplit : findUtf8SplitPoint (text done ++ held) = (text done).length := by
        obtain hnil | ⟨c, ts, -, hpre, hlt⟩ := hpart
        · exact absurd hnil hh
        · exact findUtf8SplitPoint_partial _ hh hpre hlt
      have hlt : (text done).length ≠ (text done ++ held).length := by
        have := List.length_pos_of_ne_nil hh
        rw [List.length_append]
        omega
      have hutf : fromUtf8 (text done) = true := (fromUtf8_iff _).mpr (isText_text done)
      rw [hsplit, if_neg hlt, List.take_left, List.drop_left, hutf]
      simp only [Bool.not_true, Bool.and_false, Bool.false_eq_true, if_false]
      refine ⟨?_, todo', hrest, hpart⟩
      split
      · simp
      · simpa using isText_text done

/-! ### The whole stream -/

theorem pushChunks_lossless : ∀ (chunks : List Bytes) (acc : Utf8ChunkAccumulator),
    (acc.pushChunks chunks).2.flatten ++ (acc.pushChunks chunks).1.remainder =
      acc.remainder ++ chunks.flatten
  | [], acc => by simp [pushChunks]
  | data :: chunks, acc => by
    have hstep := pushChunk_lossless acc data
    have ih := pushChunks_lossless chunks (acc.pushChunk data).1
    have hout : ∀ o : Option Bytes, o.toList.flatten = o.getD [] := by
      intro o
      cases o <;> simp
    simp only [pushChunks, List.flatten_append, List.flatten_cons, List.append_assoc, hout]
    rw [ih, ← List.append_assoc, hstep, List.append_assoc]

theorem pushChunks_remainder : ∀ (chunks : List Bytes) (acc : Utf8ChunkAccumulator),
    acc.remainder.length ≤ 3 → (acc.pushChunks chunks).1.remainder.length ≤ 3
  | [], _, h => h
  | data :: chunks, acc, h =>
    pushChunks_remainder chunks (acc.pushChunk data).1 (pushChunk_remainder h data)

theorem pushChunks_text : ∀ (chunks : List Bytes) (acc : Utf8ChunkAccumulator) (todo : List Char),
    acc.remainder ++ chunks.flatten = text todo → Partial acc.remainder todo →
    (∀ out ∈ (acc.pushChunks chunks).2, IsText out) ∧ (acc.pushChunks chunks).1.remainder = []
  | [], acc, todo, h, hp => by
    refine ⟨by simp [pushChunks], ?_⟩
    simp only [List.flatten_nil, List.append_nil] at h
    obtain hnil | ⟨c, ts, rfl, -, hlt⟩ := hp
    · exact hnil
    · rw [h] at hlt
      simp only [text, List.flatMap_cons, List.length_append] at hlt
      omega
  | data :: chunks, acc, todo, h, hp => by
    rw [List.flatten_cons, ← List.append_assoc] at h
    obtain ⟨hout, todo', hrest, hpart⟩ := pushChunk_text h hp
    obtain ⟨houts, hend⟩ := pushChunks_text chunks (acc.pushChunk data).1 todo' hrest hpart
    refine ⟨?_, hend⟩
    simp only [pushChunks, List.mem_append, Option.mem_toList]
    rintro out (ho | ho)
    · exact hout out ho
    · exact houts out ho

end Utf8Chunks

open Utf8ChunkAccumulator in
theorem utf8ChunkAccumulator_lossless (chunks : List Bytes) :
    ((pushChunks {} chunks).2 ++ (pushChunks {} chunks).1.finish.2.toList).flatten =
      chunks.flatten ∧
    (∀ n, (pushChunks {} (chunks.take n)).1.remainder.length ≤ 3) ∧
    (IsText chunks.flatten → (∀ out ∈ (pushChunks {} chunks).2, IsText out) ∧
      (pushChunks {} chunks).1.finish.2 = none) := by
  have hfinish : ∀ acc : Utf8ChunkAccumulator, acc.finish.2.toList.flatten = acc.remainder := by
    intro acc
    unfold finish
    split
    · next h => simp [List.isEmpty_iff.mp h]
    · simp
  refine ⟨?_, ?_, ?_⟩
  · rw [List.flatten_append, hfinish]
    exact Utf8Chunks.pushChunks_lossless chunks {}
  · intro n
    exact Utf8Chunks.pushChunks_remainder _ {} (Nat.zero_le _)
  · rintro ⟨todo, h⟩
    obtain ⟨houts, hend⟩ := Utf8Chunks.pushChunks_text chunks {} todo h (.inl rfl)
    refine ⟨houts, ?_⟩
    unfold finish
    rw [hend]
    rfl

end RustDesk
