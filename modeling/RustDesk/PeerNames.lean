import RustDesk.PermanentPassword
import RustDesk.UnixPath
import RustDesk.Utf8Text

/-!
# The file names of peers

The configuration of a peer is in a file named after its id. An id with a character that
does not go into a file name is encoded in base64, whose alphabet has a slash as well; the
list of peers takes the ids back from the names of the files.
-/

namespace RustDesk

open Utf8Text PermanentPassword

namespace PeerConfig

/-- `[<>:/\\|\?\*]` -/
def forbidden : List Char := ['<', '>', ':', '/', '\\', '|', '?', '*']

def isForbidden (id : List Char) : Bool := id.any fun c => decide (c ∈ forbidden)

def base64Prefix : List Char := ['b', 'a', 's', 'e', '6', '4', '_']

/-- The text of a base64 string. -/
def asciiText (bytes : Bytes) : List Char := bytes.map fun b => Char.ofNat b.toNat

def base64Text (id : List Char) : List Char := asciiText (Base64.encode (text id))

/-- The name that the id of a peer has in the directory. -/
def idEncoded (id : List Char) : List Char :=
  if isForbidden id then base64Prefix ++ base64Text id else id

/-- `String::from_utf8_lossy` -/
def lossyText (bytes : Bytes) : List Char :=
  ((fromUtf8Lossy bytes).toByteArray.utf8Decode?.getD #[]).toList

/-- The id that a name stands for in the list of peers; the length is in bytes. -/
def idDecoded (stem : List Char) : List Char :=
  if base64Prefix <+: stem ∧ (text stem).length ≠ 7 then
    lossyText ((Base64.decode (text (stem.drop 7))).getD [])
  else stem

/-! ### Lossy decoding -/

theorem toNat_ofNat {n : Nat} (h : n < 256) : (UInt8.ofNat n).toNat = n :=
  UInt8.toNat_ofNat_of_lt' h

theorem isContinuation_ofNat (v : Nat) : isContinuation (UInt8.ofNat (v % 0x40 + 0x80)) = true := by
  have h : ∀ x < 0x40, isContinuation (UInt8.ofNat (x + 0x80)) = true := by decide
  exact h _ (Nat.mod_lt _ (by omega))

/-- The second byte of a character is in the range that its first byte allows. -/
theorem isSecond_ofNat {m n : Nat} (hm : m < 256) (hn : n < 256)
    (hlo : (if m = 0xE0 then 0xA0 else if m = 0xF0 then 0x90 else 0x80) ≤ n)
    (hhi : n ≤ if m = 0xED then 0x9F else if m = 0xF4 then 0x8F else 0xBF) :
    isSecond (UInt8.ofNat m) (UInt8.ofNat n) = true := by
  have heq : ∀ k < 256, UInt8.ofNat m = UInt8.ofNat k ↔ m = k := by
    intro k hk
    rw [← UInt8.toNat_inj, toNat_ofNat hm, toNat_ofNat hk]
  have hle : ∀ k < 256, (UInt8.ofNat k ≤ UInt8.ofNat n ↔ k ≤ n) ∧
      (UInt8.ofNat n ≤ UInt8.ofNat k ↔ n ≤ k) := by
    intro k hk
    rw [UInt8.le_iff_toNat_le, UInt8.le_iff_toNat_le, toNat_ofNat hn, toNat_ofNat hk]
    exact ⟨Iff.rfl, Iff.rfl⟩
  have he0 := heq 0xE0 (by omega)
  have hed := heq 0xED (by omega)
  have hf0 := heq 0xF0 (by omega)
  have hf4 := heq 0xF4 (by omega)
  unfold isSecond isContinuation
  split_ifs with h1 h2 h3 h4 <;> rw [Bool.and_eq_true, decide_eq_true_iff, decide_eq_true_iff]
  · have hm := he0.mp h1
    simp only [hm] at hlo hhi
    exact ⟨(hle 0xA0 (by omega)).1.mpr hlo, (hle 0xBF (by omega)).2.mpr hhi⟩
  · have hm := hed.mp h2
    simp only [hm] at hlo hhi
    exact ⟨(hle 0x80 (by omega)).1.mpr hlo, (hle 0x9F (by omega)).2.mpr hhi⟩
  · have hm := hf0.mp h3
    simp only [hm] at hlo hhi
    exact ⟨(hle 0x90 (by omega)).1.mpr hlo, (hle 0xBF (by omega)).2.mpr hhi⟩
  · have hm := hf4.mp h4
    simp only [hm] at hlo hhi
    exact ⟨(hle 0x80 (by omega)).1.mpr hlo, (hle 0x8F (by omega)).2.mpr hhi⟩
  · rw [if_neg (fun h => h1 (he0.mpr h)), if_neg (fun h => h3 (hf0.mpr h))] at hlo
    rw [if_neg (fun h => h2 (hed.mpr h)), if_neg (fun h => h4 (hf4.mpr h))] at hhi
    exact ⟨(hle 0x80 (by omega)).1.mpr hlo, (hle 0xBF (by omega)).2.mpr hhi⟩

theorem utf8Chunk_utf8EncodeChar (c : Char) (rest : Bytes) : ∃ a conts,
    String.utf8EncodeChar c = a :: conts ∧
    utf8Chunk a (conts ++ rest) = (true, conts.length) := by
  have hrange : c.val.toNat < 0xD800 ∨ 0xE000 ≤ c.val.toNat ∧ c.val.toNat < 0x110000 := by
    have h := c.valid
    simp only [UInt32.isValidChar, Nat.isValidChar] at h
    omega
  fun_cases String.utf8EncodeChar c with
  | case1 v hv =>
    refine ⟨_, _, rfl, if_pos ?_⟩
    rw [UInt8.lt_iff_toNat_lt, toNat_ofNat (by omega)]
    exact Nat.lt_succ_of_le hv
  | case2 v h1 h2 =>
    refine ⟨_, _, rfl, ?_⟩
    have hs := isSecond_ofNat (m := v / 64 % 32 + 192) (n := v % 64 + 128) (by omega) (by omega)
      (by split_ifs <;> omega) (by split_ifs <;> omega)
    simp only [utf8Chunk, List.cons_append, List.nil_append, List.getElem?_cons_zero,
      Option.any_some, hs, UInt8.lt_iff_toNat_lt, UInt8.le_iff_toNat_le]
    rw [toNat_ofNat (by omega), if_neg (by simp), if_pos (by simp; omega)]
    rfl
  | case3 v h1 h2 h3 =>
    refine ⟨_, _, rfl, ?_⟩
    have hs := isSecond_ofNat (m := v / 4096 % 16 + 224) (n := v / 64 % 64 + 128) (by omega)
      (by omega) (by split_ifs <;> omega) (by split_ifs <;> omega)
    simp only [utf8Chunk, List.cons_append, List.nil_append, List.getElem?_cons_zero,
      List.getElem?_cons_succ, Option.any_some, hs, isContinuation_ofNat,
      UInt8.lt_iff_toNat_lt, UInt8.le_iff_toNat_le]
    rw [toNat_ofNat (by omega), if_neg (by simp), if_neg (by simp), if_pos (by simp; omega)]
    rfl
  | case4 v h1 h2 h3 =>
    refine ⟨_, _, rfl, ?_⟩
    have hs := isSecond_ofNat (m := v / 262144 % 8 + 240) (n := v / 4096 % 64 + 128) (by omega)
      (by omega) (by split_ifs <;> omega) (by split_ifs <;> omega)
    simp only [utf8Chunk, List.cons_append, List.nil_append, List.getElem?_cons_zero,
      List.getElem?_cons_succ, Option.any_some, hs, isContinuation_ofNat,
      UInt8.lt_iff_toNat_lt, UInt8.le_iff_toNat_le]
    rw [toNat_ofNat (by omega), if_neg (by simp), if_neg (by simp), if_neg (by simp),
      if_pos (by simp; omega)]
    rfl

theorem utf8Chunks_copy : ∀ conts rest : Bytes,
    utf8Chunks true conts.length (conts ++ rest) = conts ++ utf8Chunks true 0 rest
  | [], _ => rfl
  | a :: conts, rest => by
    rw [List.length_cons, List.cons_append, utf8Chunks, if_pos rfl, utf8Chunks_copy conts rest,
      List.cons_append]

theorem fromUtf8Lossy_text : ∀ chars : List Char, fromUtf8Lossy (text chars) = text chars
  | [] => rfl
  | c :: cs => by
    obtain ⟨a, conts, hc, hchunk⟩ := utf8Chunk_utf8EncodeChar c (text cs)
    have ih := fromUtf8Lossy_text cs
    unfold fromUtf8Lossy at ih ⊢
    rw [text, List.flatMap_cons, hc, List.cons_append, utf8Chunks, hchunk]
    dsimp only
    rw [utf8Chunks_copy, ih]

theorem lossyText_text (chars : List Char) : lossyText (text chars) = chars := by
  unfold lossyText
  rw [fromUtf8Lossy_text, show (text chars).toByteArray = chars.utf8Encode from rfl,
    List.utf8Decode?_utf8Encode]
  rfl

theorem charCount_utf8Chunks (copy : Bool) (k : Nat) (bytes : Bytes) :
    charCount (utf8Chunks copy k bytes) ≤ bytes.length := by
  have hone : ∀ (a : UInt8) (l : Bytes), charCount (a :: l) ≤ charCount l + 1 := by
    intro a l
    unfold charCount
    rw [List.countP_cons]
    split_ifs <;> omega
  have hbf : isContinuation 0xBF = true := by decide
  have hbd : isContinuation 0xBD = true := by decide
  fun_induction utf8Chunks copy k bytes with
  | case1 => exact Nat.le_refl 0
  | case2 k a rest ih =>
    rw [List.length_cons]
    have := hone a (utf8Chunks true k rest)
    omega
  | case3 k a rest _ ih =>
    rw [List.length_cons]
    omega
  | case4 =>
    rename_i a rest n _ ih
    rw [List.length_cons]
    have := hone a (utf8Chunks true n rest)
    omega
  | case5 =>
    rename_i a rest n _ ih
    have hrest : charCount (0xBF :: 0xBD :: utf8Chunks false n rest) =
        charCount (utf8Chunks false n rest) := by
      simp [charCount, hbf, hbd]
    have := hone 0xEF (0xBF :: 0xBD :: utf8Chunks false n rest)
    rw [List.length_cons]
    omega

theorem isContinuation_iff (b : UInt8) : isContinuation b = true ↔ IsContinuation b := by
  have h : ∀ n < 256, isContinuation (UInt8.ofNat n) = true ↔ IsContinuation (UInt8.ofNat n) := by
    decide +kernel
  have hb := h b.toNat b.toNat_lt
  rwa [UInt8.ofNat_toNat] at hb

theorem charCount_utf8EncodeChar (c : Char) : charCount (String.utf8EncodeChar c) = 1 := by
  have he := encoded c
  generalize String.utf8EncodeChar c = bytes at he ⊢
  unfold charCount
  cases he with
  | @ascii b ha =>
    have hb : isContinuation b ≠ true := fun h => ((isContinuation_iff b).mp h).and_ne_zero ha
    simp [hb]
  | @sequence b rest hlead _ hrest =>
    have hb : isContinuation b ≠ true := fun h => hlead.2.1 ((isContinuation_iff b).mp h)
    have hzero : rest.countP (fun c => !isContinuation c) = 0 := by
      rw [List.countP_eq_zero]
      intro x hx
      simpa using (isContinuation_iff x).mpr (hrest x hx)
    simp [hb, hzero]

theorem charCount_text : ∀ chars : List Char, charCount (text chars) = chars.length
  | [] => rfl
  | c :: cs => by
    have ih := charCount_text cs
    have hc := charCount_utf8EncodeChar c
    unfold charCount at ih hc ⊢
    rw [text, List.flatMap_cons, List.countP_append, hc, ih, List.length_cons]
    omega

theorem length_lossyText (bytes : Bytes) : (lossyText bytes).length ≤ bytes.length := by
  unfold lossyText
  cases h : (fromUtf8Lossy bytes).toByteArray.utf8Decode? with
  | none => exact Nat.zero_le _
  | some chars =>
    have hsome : (fromUtf8Lossy bytes).toByteArray.utf8Decode?.isSome = true := by rw [h]; rfl
    have henc := ByteArray.utf8Encode_get_utf8Decode? (h := hsome)
    simp only [h, Option.get_some] at henc
    have hbytes : text chars.toList = fromUtf8Lossy bytes := by
      have hd := congrArg ByteArray.data henc
      simpa [List.utf8Encode] using congrArg Array.toList hd
    have hcount := charCount_text chars.toList
    rw [hbytes] at hcount
    rw [Option.getD_some, ← hcount]
    exact charCount_utf8Chunks true 0 bytes

/-! ### Names in base64 -/

theorem text_asciiText : ∀ bytes : Bytes, (∀ b ∈ bytes, b < 128) → text (asciiText bytes) = bytes
  | [], _ => rfl
  | b :: bytes, h => by
    obtain ⟨hb, hbytes⟩ := List.forall_mem_cons.mp h
    have hb : b.toNat < 128 := UInt8.lt_iff_toNat_lt.mp hb
    have hval : (Char.ofNat b.toNat).val.toNat = b.toNat := by
      have hvalid : b.toNat.isValidChar := Or.inl (by omega)
      unfold Char.ofNat
      rw [dif_pos hvalid]
      rfl
    have hchar : String.utf8EncodeChar (Char.ofNat b.toNat) = [b] := by
      unfold String.utf8EncodeChar
      dsimp only
      rw [hval, if_pos (by omega), UInt8.ofNat_toNat]
    rw [asciiText, List.map_cons, text, List.flatMap_cons, hchar]
    exact congrArg (b :: ·) (text_asciiText bytes hbytes)

theorem text_base64Text (id : List Char) : text (base64Text id) = Base64.encode (text id) :=
  text_asciiText _ fun _ => Base64.lt_of_mem_encode

theorem text_append (xs ys : List Char) : text (xs ++ ys) = text xs ++ text ys :=
  List.flatMap_append

theorem text_ne_nil {chars : List Char} (h : chars ≠ []) : text chars ≠ [] := by
  obtain _ | ⟨c, cs⟩ := chars
  · exact absurd rfl h
  · intro hnil
    rw [text, List.flatMap_cons, List.append_eq_nil_iff] at hnil
    exact String.utf8EncodeChar_ne_nil hnil.1

/-- A name behind the prefix is decoded, unless nothing is behind it. -/
theorem idDecoded_marked {rest : List Char} (h : rest ≠ []) :
    idDecoded (base64Prefix ++ rest) = lossyText ((Base64.decode (text rest)).getD []) := by
  have hlen : (text (base64Prefix ++ rest)).length ≠ 7 := by
    have hpos := List.length_pos_of_ne_nil (text_ne_nil h)
    have hpre : (text base64Prefix).length = 7 := by decide
    rw [text_append, List.length_append]
    omega
  rw [idDecoded, if_pos ⟨List.prefix_append _ _, hlen⟩]
  rfl

theorem base64Text_ne_nil {id : List Char} (h : id ≠ []) : base64Text id ≠ [] := by
  intro hnil
  have henc := text_base64Text id
  have hlen := Base64.length_encode (text id)
  have hpos := List.length_pos_of_ne_nil (text_ne_nil h)
  rw [hnil] at henc
  rw [← henc] at hlen
  simp only [text, List.flatMap_nil, List.length_nil] at hlen hpos
  omega

theorem ne_nil_of_isForbidden {id : List Char} (h : isForbidden id = true) : id ≠ [] := by
  rintro rfl
  cases h

theorem idDecoded_base64 {id : List Char} (h : id ≠ []) :
    idDecoded (base64Prefix ++ base64Text id) = id := by
  rw [idDecoded_marked (base64Text_ne_nil h), text_base64Text, Base64.decode_encode,
    Option.getD_some, lossyText_text]

theorem idDecoded_plain {stem : List Char} (h : base64Prefix <+: stem → stem = base64Prefix) :
    idDecoded stem = stem := by
  refine if_neg ?_
  rintro ⟨hpre, hlen⟩
  rw [h hpre] at hlen
  exact hlen (by decide)

theorem length_idDecoded {rest : List Char} (h : rest ≠ []) :
    (idDecoded (base64Prefix ++ rest)).length < (base64Prefix ++ rest).length := by
  rw [idDecoded_marked h, List.length_append]
  cases hdec : Base64.decode (text rest) with
  | none =>
    have := length_lossyText ([] : Bytes)
    simp only [List.length_nil] at this
    simp only [Option.getD_none]
    have hpre : base64Prefix.length = 7 := rfl
    omega
  | some bytes =>
    obtain ⟨-, hlen, -⟩ := Base64.decode_spec hdec
    have hall : charCount (text rest) = (text rest).length := by
      unfold charCount
      rw [List.countP_eq_length]
      intro b hb
      have hlt := UInt8.lt_iff_toNat_lt.mp (Base64.lt_of_mem_of_decode hdec hb)
      have hno : ¬ (0x80 : UInt8) ≤ b := by
        rw [UInt8.le_iff_toNat_le]
        exact Nat.not_le_of_lt hlt
      simp [isContinuation, hno]
    have hcount := charCount_text rest
    have hlossy := length_lossyText bytes
    simp only [Option.getD_some]
    have hpre : base64Prefix.length = 7 := rfl
    omega

theorem dot_notMem_base64Text (id : List Char) : '.' ∉ base64Text id := by
  intro h
  have hmem : (46 : UInt8) ∈ text (base64Text id) :=
    List.mem_flatMap.mpr ⟨'.', h, by decide⟩
  rw [text_base64Text] at hmem
  exact Base64.dot_notMem_encode _ hmem

theorem ne_255_of_mem_text {chars : List Char} {b : UInt8} (h : b ∈ text chars) : b ≠ 255 := by
  rintro rfl
  obtain ⟨c, -, hc⟩ := List.mem_flatMap.mp h
  have he := encoded c
  generalize String.utf8EncodeChar c = bytes at he hc
  cases he with
  | ascii ha =>
    rw [← List.mem_singleton.mp hc] at ha
    exact absurd ha (by decide)
  | @sequence b rest hlead _ hrest =>
    rcases List.mem_cons.mp hc with rfl | hc
    · exact absurd hlead.2.2 (by simp [show seqLen 255 = none by decide])
    · exact absurd (hrest 255 hc) (by decide)

theorem not_two_slashes (id rest : List Char) : base64Text id ≠ rest ++ ['/', '/'] := by
  intro h
  have henc := text_base64Text id
  rw [h, text_append] at henc
  have hlast := Base64.getLast_of_slashes henc.symm
  exact ne_255_of_mem_text (List.mem_of_getLast? hlast) rfl

/-- Without the slash at its end the name has three digits in the last group. -/
theorem idDecoded_cut {id rest : List Char} (h : base64Text id = rest ++ ['/']) :
    idDecoded (base64Prefix ++ rest) = [] := by
  have henc := text_base64Text id
  rw [h, text_append] at henc
  have hlen := Base64.length_encode (text id)
  rw [← henc, List.length_append, show (text ['/']).length = 1 by decide] at hlen
  have hrest : rest ≠ [] := by
    rintro rfl
    simp [text] at hlen
    omega
  have hnone : Base64.decode (text rest) = none := by
    cases hdec : Base64.decode (text rest) with
    | none => rfl
    | some bytes =>
      obtain ⟨hdvd, -⟩ := Base64.decode_spec hdec
      omega
  rw [idDecoded_marked hrest, hnone, Option.getD_none]
  exact lossyText_text []

end PeerConfig

end RustDesk
