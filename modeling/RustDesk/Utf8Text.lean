import Mathlib.Data.List.Basic

/-!
# UTF-8 text cut at arbitrary byte positions

A byte string is text when it is the encoding of some characters. Cutting a text
anywhere leaves whole characters followed by a proper prefix of the next one, and the
lead byte of that prefix announces more bytes than the prefix has.
-/

namespace Utf8Text

abbrev text (chars : List Char) : List UInt8 := chars.flatMap String.utf8EncodeChar

def IsText (bytes : List UInt8) : Prop := ∃ chars, bytes = text chars

def fromUtf8 (bytes : List UInt8) : Bool := bytes.toByteArray.validateUTF8

def IsContinuation (b : UInt8) : Prop := b &&& 0xC0 = 0x80

instance (b : UInt8) : Decidable (IsContinuation b) := inferInstanceAs (Decidable (_ = _))

theorem IsContinuation.and_ne_zero {b : UInt8} (h : IsContinuation b) : b &&& 0x80 ≠ 0 := by
  intro h0
  have hand : (b &&& 0xC0) &&& 0x80 = b &&& 0x80 := by
    rw [UInt8.and_assoc]
    rfl
  rw [show b &&& 0xC0 = 0x80 from h, h0] at hand
  exact absurd hand (by decide)

/-- The number of bytes that the lead byte of a longer sequence announces. -/
def seqLen (b : UInt8) : Option Nat :=
  if b &&& 0xE0 = 0xC0 then some 2
  else if b &&& 0xF0 = 0xE0 then some 3
  else if b &&& 0xF8 = 0xF0 then some 4
  else none

theorem fromUtf8_iff (bytes : List UInt8) : fromUtf8 bytes = true ↔ IsText bytes := by
  unfold fromUtf8
  rw [ByteArray.validateUTF8_eq_true_iff]
  constructor
  · rintro ⟨chars, h⟩
    refine ⟨chars, ?_⟩
    have hd := congrArg ByteArray.data h
    simpa [List.utf8Encode] using congrArg Array.toList hd
  · rintro ⟨chars, rfl⟩
    exact ⟨chars, rfl⟩

/-- The lead byte of a sequence of `n` bytes. -/
def IsLead (n : Nat) (b : UInt8) : Prop :=
  b &&& 0x80 ≠ 0 ∧ ¬ IsContinuation b ∧ seqLen b = some n

instance (n : Nat) (b : UInt8) : Decidable (IsLead n b) := inferInstanceAs (Decidable (_ ∧ _))

/-- An encoding is an ASCII byte, or a lead byte and the continuation bytes it announces. -/
inductive Encoded : List UInt8 → Prop
  | ascii {b : UInt8} : b &&& 0x80 = 0 → Encoded [b]
  | sequence {b : UInt8} {rest : List UInt8} : IsLead (rest.length + 1) b → rest.length ≤ 3 →
      (∀ x ∈ rest, IsContinuation x) → Encoded (b :: rest)

theorem continuation_ofNat (v : Nat) : IsContinuation (UInt8.ofNat (v % 0x40 + 0x80)) := by
  have h : ∀ x < 0x40, IsContinuation (UInt8.ofNat (x + 0x80)) := by decide
  exact h _ (Nat.mod_lt _ (by omega))

theorem lead_two (v : Nat) : IsLead 2 (UInt8.ofNat (v % 0x20 + 0xc0)) := by
  have h : ∀ x < 0x20, IsLead 2 (UInt8.ofNat (x + 0xc0)) := by decide
  exact h _ (Nat.mod_lt _ (by omega))

theorem lead_three (v : Nat) : IsLead 3 (UInt8.ofNat (v % 0x10 + 0xe0)) := by
  have h : ∀ x < 0x10, IsLead 3 (UInt8.ofNat (x + 0xe0)) := by decide
  exact h _ (Nat.mod_lt _ (by omega))

theorem lead_four (v : Nat) : IsLead 4 (UInt8.ofNat (v % 0x08 + 0xf0)) := by
  have h : ∀ x < 0x08, IsLead 4 (UInt8.ofNat (x + 0xf0)) := by decide
  exact h _ (Nat.mod_lt _ (by omega))

theorem encoded (c : Char) : Encoded (String.utf8EncodeChar c) := by
  fun_cases String.utf8EncodeChar c with
  | case1 v hv =>
    apply Encoded.ascii
    have h : ∀ x < 0x80, UInt8.ofNat x &&& 0x80 = 0 := by decide
    exact h v (by omega)
  | case2 v _ _ =>
    refine Encoded.sequence (lead_two (v / 64)) (by simp) ?_
    simp only [List.forall_mem_cons, continuation_ofNat, true_and]
    simp
  | case3 v _ _ _ =>
    refine Encoded.sequence (lead_three (v / 4096)) (by simp) ?_
    simp only [List.forall_mem_cons, continuation_ofNat, true_and]
    simp
  | case4 v _ _ _ =>
    refine Encoded.sequence (lead_four (v / 262144)) (by simp) ?_
    simp only [List.forall_mem_cons, continuation_ofNat, true_and]
    simp

/-- The bytes held back from a text: nothing, or a proper prefix of the next character. -/
def Partial (held : List UInt8) (todo : List Char) : Prop :=
  held = [] ∨ ∃ c ts, todo = c :: ts ∧ held <+: String.utf8EncodeChar c ∧
    held.length < (String.utf8EncodeChar c).length

theorem isText_text (chars : List Char) : IsText (text chars) := ⟨chars, rfl⟩

/-- A text that is cut in two: whole characters, and the start of the next one. -/
theorem cut_text : ∀ (chars : List Char) (front back : List UInt8), front ++ back = text chars →
    ∃ done todo held, chars = done ++ todo ∧ front = text done ++ held ∧
      held ++ back = text todo ∧ Partial held todo
  | [], front, back, h => by
    obtain ⟨rfl, rfl⟩ := List.append_eq_nil_iff.mp h
    exact ⟨[], [], [], rfl, rfl, rfl, .inl rfl⟩
  | c :: cs, front, back, h => by
    have hc : text (c :: cs) = String.utf8EncodeChar c ++ text cs := rfl
    by_cases hlen : front.length < (String.utf8EncodeChar c).length
    · -- the cut is inside the first character
      refine ⟨[], c :: cs, front, rfl, rfl, h, .inr ⟨c, cs, rfl, ?_, hlen⟩⟩
      rw [hc] at h
      exact List.prefix_of_prefix_length_le ⟨back, h⟩ ⟨text cs, rfl⟩ (Nat.le_of_lt hlen)
    · rw [hc] at h
      obtain ⟨rest, rfl⟩ : String.utf8EncodeChar c <+: front :=
        List.prefix_of_prefix_length_le ⟨text cs, rfl⟩ ⟨back, h⟩ (Nat.le_of_not_lt hlen)
      rw [List.append_assoc, List.append_cancel_left_eq] at h
      obtain ⟨done, todo, held, rfl, rfl, hb, hp⟩ := cut_text cs rest back h
      refine ⟨c :: done, todo, held, rfl, ?_, hb, hp⟩
      simp [text]

/-- What is left of a character that was cut, and that no byte of its start is ASCII. -/
theorem Partial.split {held back : List UInt8} {todo : List Char} (hp : Partial held todo)
    (h : held ++ back = text todo) :
    ∃ conts rest, back = conts ++ rest ∧ conts.length ≤ 3 ∧ (∀ x ∈ conts, IsContinuation x) ∧
      IsText rest ∧ ∀ x ∈ held, x &&& 0x80 ≠ 0 := by
  obtain rfl | ⟨c, ts, rfl, ⟨conts, hc⟩, hlen⟩ := hp
  · exact ⟨[], back, rfl, by simp, by simp, ⟨todo, h⟩, by simp⟩
  · have hback : back = conts ++ text ts := by
      have htext : text (c :: ts) = held ++ (conts ++ text ts) := by
        rw [← List.append_assoc, hc]
        rfl
      rw [htext] at h
      exact List.append_cancel_left h
    cases held with
    | nil =>
      refine ⟨[], back, rfl, by simp, by simp, ⟨c :: ts, h⟩, by simp⟩
    | cons lead held =>
      have henc := encoded c
      rw [← hc] at henc hlen
      generalize hall : lead :: held ++ conts = bytes at henc
      cases henc with
      | ascii hb =>
        have := congrArg List.length hall
        simp only [List.cons_append, List.length_cons, List.length_append, List.length_nil] at this hlen
        omega
      | @sequence b rest hlead hle hconts =>
        rw [List.cons_append, List.cons.injEq] at hall
        obtain ⟨rfl, rfl⟩ := hall
        refine ⟨conts, text ts, hback, ?_, ?_, isText_text ts, ?_⟩
        · rw [List.length_append] at hle
          omega
        · intro x hx
          exact hconts x (List.mem_append_right _ hx)
        · intro x hx
          rcases List.mem_cons.mp hx with rfl | hx
          · exact hlead.1
          · exact (hconts x (List.mem_append_left _ hx)).and_ne_zero

/-- A text can be cut behind an ASCII byte. -/
theorem isText_of_ascii {front back : List UInt8} {x : UInt8} (hx : x &&& 0x80 = 0)
    (h : IsText (front ++ [x] ++ back)) : IsText back := by
  obtain ⟨chars, h⟩ := h
  obtain ⟨done, todo, held, -, hfront, hback, hp⟩ := cut_text chars _ back h
  obtain ⟨-, -, -, -, -, -, hascii⟩ := hp.split hback
  have hheld : held = [] := by
    by_contra hne
    have hlast : x ∈ held := by
      have hget := congrArg List.getLast? hfront
      rw [List.getLast?_concat, List.getLast?_append_of_ne_nil _ hne] at hget
      exact List.mem_of_getLast? hget.symm
    exact hascii x hlast hx
  subst hheld
  exact ⟨todo, hback⟩

/-- The end of a text is a text behind at most three continuation bytes. -/
theorem IsText.suffix {front back : List UInt8} (h : IsText (front ++ back)) :
    ∃ conts rest, back = conts ++ rest ∧ conts.length ≤ 3 ∧ (∀ x ∈ conts, IsContinuation x) ∧
      IsText rest := by
  obtain ⟨chars, h⟩ := h
  obtain ⟨-, todo, held, -, -, hback, hp⟩ := cut_text chars _ back h
  obtain ⟨conts, rest, hcut, hlen, hconts, hrest, -⟩ := hp.split hback
  exact ⟨conts, rest, hcut, hlen, hconts, hrest⟩

theorem not_isContinuation_head {x : UInt8} {bytes : List UInt8} (h : IsText (x :: bytes)) :
    ¬IsContinuation x := by
  obtain ⟨chars, h⟩ := h
  cases chars with
  | nil => exact absurd h (List.cons_ne_nil _ _)
  | cons c chars =>
    have henc := encoded c
    have hc : x :: bytes = String.utf8EncodeChar c ++ text chars := h
    generalize String.utf8EncodeChar c = enc at henc hc
    cases henc with
    | ascii hb =>
      rw [List.singleton_append, List.cons.injEq] at hc
      intro hcont
      exact hcont.and_ne_zero (hc.1 ▸ hb)
    | sequence hlead _ _ =>
      rw [List.cons_append, List.cons.injEq] at hc
      exact hc.1 ▸ hlead.2.1

end Utf8Text
