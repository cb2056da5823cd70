import RustDesk.Regex
import RustDesk.Message
import Mathlib.Data.List.Count

/-!
# Hosts with ports

A server is given as a host, or as a host with a port behind a colon; an IPv6 address with a
port is put into brackets. `check_port` adds a default port, `split_host_port` takes the port
off, `increase_port` adds to it. All three ask the same regular expression whether the text
is an IPv6 address. It wants one to four hexadecimal digits at both ends, so that it misses
an address that begins or ends with `::`, and takes a short host with a port for one.

Text is a list of characters.
-/

namespace RustDesk.HostPort

open Regex RegularExpression

/-- The decimal digits of Unicode, which `\d` stands for. -/
structure DecimalDigits where
  chars : List Char
  ascii : ∀ c, c.isDigit = true → c ∈ chars

def hexDigits : List Char :=
  ['a', 'b', 'c', 'd', 'e', 'f', 'A', 'B', 'C', 'D', 'E', 'F', '0', '1', '2', '3', '4', '5', '6',
    '7', '8', '9']

/-- `[a-fA-F0-9]{1,4}` -/
def hexGroup : RegularExpression Char := upTo 4 (oneOf hexDigits)

/-- `:{1,2}` -/
def colons : RegularExpression Char := upTo 2 (oneOf [':'])

/-- `([a-fA-F0-9]{1,4}:{1,2})+[a-fA-F0-9]{1,4}` -/
def groups : RegularExpression Char := many (hexGroup * colons) * hexGroup

/-- The groups in brackets, and a port. -/
def bracketed (d : DecimalDigits) : RegularExpression Char :=
  char '[' * groups * char ']' * char ':' * many (oneOf d.chars)

/-- The anchors at both ends make it a match of the whole text. -/
def isIpv6Str (d : DecimalDigits) (id : List Char) : Bool := (groups + bracketed d).rmatch id

/-- An `i32` as it is printed. -/
def showI32 (n : Int) : List Char :=
  if n < 0 then '-' :: Nat.toDigits 10 n.natAbs else Nat.toDigits 10 n.natAbs

/-- `str::parse::<i32>`: an optional sign and decimal digits, within 32 bits. -/
def parseI32 (s : List Char) : Option Int :=
  let signed : Bool × List Char := match s with
    | '-' :: ds => (true, ds)
    | '+' :: ds => (false, ds)
    | ds => (false, ds)
  if signed.2.isEmpty || !signed.2.all Char.isDigit then none
  else
    let n : Int := Nat.ofDigitChars 10 signed.2 0
    let v := if signed.1 then -n else n
    if -2 ^ 31 ≤ v ∧ v < 2 ^ 31 then some v else none

/-- `split` at a pattern of two characters. -/
def splitOnPair (a b : Char) : List Char → List (List Char)
  | [] => [[]]
  | [c] => [[c]]
  | c :: d :: rest =>
    if c = a ∧ d = b then [] :: splitOnPair a b rest
    else
      match splitOnPair a b (d :: rest) with
      | [] => [[c]]
      | part :: parts => (c :: part) :: parts

def checkPort (d : DecimalDigits) (host : List Char) (port : Int) : List Char :=
  if isIpv6Str d host then
    if host.head? = some '[' then host else '[' :: host ++ ']' :: ':' :: showI32 port
  else if ':' ∉ host then host ++ ':' :: showI32 port
  else host

def increasePort (d : DecimalDigits) (host : List Char) (offset : Int) : List Char :=
  if isIpv6Str d host then
    if host.head? = some '[' then
      match splitOnPair ']' ':' host with
      | [front, port] =>
        let port := (parseI32 port).getD 0
        if port > 0 then front ++ ']' :: ':' :: showI32 (asI32 (port + offset)) else host
      | _ => host
    else host
  else if ':' ∈ host then
    match host.splitOn ':' with
    | [front, port] =>
      let port := (parseI32 port).getD 0
      if port > 0 then front ++ ':' :: showI32 (asI32 (port + offset)) else host
    | _ => host
  else host

def splitHostPort (d : DecimalDigits) (host : List Char) : Option (List Char × Int) :=
  if isIpv6Str d host then
    if host.head? = some '[' then
      match splitOnPair ']' ':' host with
      | [front, port] =>
        let port := (parseI32 port).getD 0
        if port > 0 then some (front ++ [']'], port) else none
      | _ => none
    else none
  else if ':' ∈ host then
    match host.splitOn ':' with
    | [front, port] =>
      let port := (parseI32 port).getD 0
      if port > 0 then some (front, port) else none
    | _ => none
  else none

/-! ### The text of an address -/

/-- `Ipv4Addr` as it is printed. -/
def ipv4Text (octets : Vector UInt8 4) : List Char :=
  ['.'].intercalate (octets.toList.map fun o => Nat.toDigits 10 o.toNat)

def segmentText (segment : UInt16) : List Char := Nat.toDigits 16 segment.toNat

/-- `fmt_subslice`: the segments with colons between them. -/
def segmentsText : List UInt16 → List Char
  | [] => []
  | [segment] => segmentText segment
  | segment :: next :: rest => segmentText segment ++ ':' :: segmentsText (next :: rest)

structure Span where
  start : Nat := 0
  len : Nat := 0
  deriving DecidableEq, Repr

/-- The longest run of zeros, the first one of that length. -/
def zeroes (segments : List UInt16) : Span :=
  (segments.zipIdx.foldl (fun (acc : Span × Span) (segment : UInt16 × Nat) =>
    if segment.1 = 0 then
      let current : Span :=
        { start := if acc.2.len = 0 then segment.2 else acc.2.start, len := acc.2.len + 1 }
      (if current.len > acc.1.len then current else acc.1, current)
    else (acc.1, {})) ({}, {})).1

/-- `Ipv6Addr` as it is printed. -/
def ipv6Text (segments : Vector UInt16 8) : List Char :=
  let s := segments.toList
  if s.take 6 = [0, 0, 0, 0, 0, 0xffff] then
    ':' :: ':' :: 'f' :: 'f' :: 'f' :: 'f' :: ':' :: ipv4Text #v[(segments[6] >>> 8).toUInt8,
      segments[6].toUInt8, (segments[7] >>> 8).toUInt8, segments[7].toUInt8]
  else
    let span := zeroes s
    if span.len > 1 then
      segmentsText (s.take span.start) ++
        ':' :: ':' :: segmentsText (s.drop (span.start + span.len))
    else segmentsText s

/-! ### What the regular expression matches -/

variable {d : DecimalDigits} {x g rest name port : List Char}

structure IsGroup (g : List Char) : Prop where
  ne_nil : g ≠ []
  length : g.length ≤ 4
  hex : ∀ c ∈ g, c ∈ hexDigits

theorem mem_hexGroup : g ∈ hexGroup.matches' ↔ IsGroup g := by
  rw [hexGroup, mem_upTo_oneOf]
  exact ⟨fun ⟨h₁, h₂, h₃⟩ => ⟨h₁, h₂, h₃⟩, fun h => ⟨h.ne_nil, h.length, h.hex⟩⟩

theorem mem_colons {s : List Char} : s ∈ colons.matches' ↔ s = [':'] ∨ s = [':', ':'] := by
  rw [colons, mem_upTo_oneOf]
  constructor
  · rintro ⟨hne, hlen, hall⟩
    have hrep : s = List.replicate s.length ':' :=
      List.eq_replicate_iff.mpr ⟨rfl, fun c hc => List.mem_singleton.mp (hall c hc)⟩
    have hpos := List.length_pos_iff.mpr hne
    obtain h | h : s.length = 1 ∨ s.length = 2 := by omega
    · exact .inl (by rw [hrep, h]; rfl)
    · exact .inr (by rw [hrep, h]; rfl)
  · rintro (rfl | rfl)
    · exact ⟨by simp, by simp, by simp⟩
    · exact ⟨by simp, by simp, by simp⟩

/-- A group, one or two colons, and a group or more of the same. -/
theorem mem_groups : x ∈ groups.matches' ↔
    ∃ g rest, IsGroup g ∧ (IsGroup rest ∨ rest ∈ groups.matches') ∧
      (x = g ++ ':' :: rest ∨ x = g ++ ':' :: ':' :: rest) := by
  have hpair : ∀ y, y ∈ (hexGroup * colons).matches' ↔
      ∃ g, IsGroup g ∧ (y = g ++ [':'] ∨ y = g ++ [':', ':']) := by
    intro y
    rw [matches'_mul, Language.mem_mul]
    simp only [mem_hexGroup, mem_colons]
    constructor
    · rintro ⟨g, hg, s, rfl | rfl, rfl⟩
      · exact ⟨g, hg, .inl rfl⟩
      · exact ⟨g, hg, .inr rfl⟩
    · rintro ⟨g, hg, rfl | rfl⟩
      · exact ⟨g, hg, _, .inl rfl, rfl⟩
      · exact ⟨g, hg, _, .inr rfl, rfl⟩
  have hgroups : ∀ x, x ∈ groups.matches' ↔
      ∃ a ∈ (many (hexGroup * colons)).matches', ∃ b, IsGroup b ∧ a ++ b = x := by
    intro x
    rw [groups, matches'_mul, Language.mem_mul]
    simp only [mem_hexGroup]
  constructor
  · intro hx
    obtain ⟨a, ha, b, hb, rfl⟩ := (hgroups x).mp hx
    obtain ⟨y, hy, ys, hys, rfl⟩ := mem_many.mp ha
    obtain ⟨g, hg, hy⟩ := (hpair y).mp hy
    refine ⟨g, ys.flatten ++ b, hg, ?_, ?_⟩
    · cases ys with
      | nil => exact .inl hb
      | cons z zs =>
        refine .inr ((hgroups _).mpr ⟨z ++ zs.flatten, ?_, b, hb, rfl⟩)
        exact mem_many.mpr ⟨z, hys z List.mem_cons_self, zs,
          fun w hw => hys w (List.mem_cons_of_mem _ hw), rfl⟩
    · rcases hy with rfl | rfl
      · exact .inl (by simp)
      · exact .inr (by simp)
  · rintro ⟨g, rest, hg, hrest, hx⟩
    have hy : ∃ y ∈ (hexGroup * colons).matches', x = y ++ rest := by
      rcases hx with rfl | rfl
      · exact ⟨g ++ [':'], (hpair _).mpr ⟨g, hg, .inl rfl⟩, by simp⟩
      · exact ⟨g ++ [':', ':'], (hpair _).mpr ⟨g, hg, .inr rfl⟩, by simp⟩
    obtain ⟨y, hy, rfl⟩ := hy
    rcases hrest with hrest | hrest
    · exact (hgroups _).mpr ⟨y, mem_many_of_mem hy, rest, hrest, rfl⟩
    · obtain ⟨a, ha, b, hb, rfl⟩ := (hgroups rest).mp hrest
      exact (hgroups _).mpr ⟨y ++ a, mem_many_cons hy ha, b, hb, by simp⟩

theorem mem_bracketed : x ∈ (bracketed d).matches' ↔
    ∃ inner ∈ groups.matches', ∃ digits ∈ (many (oneOf d.chars)).matches',
      x = '[' :: inner ++ ']' :: ':' :: digits := by
  rw [bracketed]
  simp only [matches'_mul, Language.mem_mul, matches'_char]
  constructor
  · rintro ⟨_, ⟨_, ⟨_, ⟨_, rfl, inner, hinner, rfl⟩, _, rfl, rfl⟩, _, rfl, rfl⟩, digits, hdigits,
      rfl⟩
    exact ⟨inner, hinner, digits, hdigits, by simp⟩
  · rintro ⟨inner, hinner, digits, hdigits, rfl⟩
    exact ⟨_, ⟨_, ⟨_, ⟨['['], rfl, inner, hinner, rfl⟩, [']'], rfl, rfl⟩, [':'], rfl, rfl⟩, digits,
      hdigits, by simp⟩

theorem isIpv6Str_iff :
    isIpv6Str d x = true ↔ x ∈ groups.matches' ∨ x ∈ (bracketed d).matches' := by
  rw [isIpv6Str, rmatch_iff_matches', matches'_add, Language.mem_add]

theorem colon_notMem_group (h : IsGroup g) : ':' ∉ g :=
  fun hmem => absurd (h.hex _ hmem) (by decide)

theorem colon_mem_groups (h : x ∈ groups.matches') : ':' ∈ x := by
  obtain ⟨g, rest, -, -, rfl | rfl⟩ := mem_groups.mp h
  · simp
  · simp

/-- The first character of a match. -/
theorem head_of_groups (h : x ∈ groups.matches') : ∃ c tail, x = c :: tail ∧ c ∈ hexDigits := by
  obtain ⟨g, rest, hg, -, hx⟩ := mem_groups.mp h
  cases g with
  | nil => exact absurd rfl hg.ne_nil
  | cons c g =>
    have hc := hg.hex c List.mem_cons_self
    rcases hx with rfl | rfl
    · exact ⟨c, _, rfl, hc⟩
    · exact ⟨c, _, rfl, hc⟩

theorem not_isIpv6Str_of_no_colon (h : ':' ∉ x) : isIpv6Str d x = false := by
  rw [Bool.eq_false_iff]
  intro hmatch
  rcases isIpv6Str_iff.mp hmatch with hx | hx
  · exact h (colon_mem_groups hx)
  · obtain ⟨inner, -, digits, -, rfl⟩ := mem_bracketed.mp hx
    exact h (by simp)

theorem not_isIpv6Str_of_colon_head (x : List Char) : isIpv6Str d (':' :: x) = false := by
  rw [Bool.eq_false_iff]
  intro hmatch
  rcases isIpv6Str_iff.mp hmatch with hx | hx
  · obtain ⟨c, tail, heq, hc⟩ := head_of_groups hx
    rw [List.cons.injEq] at heq
    exact absurd (heq.1 ▸ hc) (by decide)
  · obtain ⟨inner, -, digits, -, heq⟩ := mem_bracketed.mp hx
    rw [List.cons_append, List.cons.injEq] at heq
    exact absurd heq.1 (by decide)

/-- The text before the first colon is determined. -/
theorem first_colon {a b a' b' : List Char} (ha : ':' ∉ a) (ha' : ':' ∉ a')
    (h : a ++ ':' :: b = a' ++ ':' :: b') : a = a' ∧ b = b' := by
  induction a generalizing a' with
  | nil =>
    cases a' with
    | nil => exact ⟨rfl, (List.cons.inj h).2⟩
    | cons c a' => exact absurd (List.mem_cons.mpr (.inl (List.cons.inj h).1)) ha'
  | cons c a ih =>
    cases a' with
    | nil => exact absurd (List.mem_cons.mpr (.inl (List.cons.inj h).1.symm)) ha
    | cons c' a' =>
      rw [List.cons_append, List.cons_append, List.cons.injEq] at h
      obtain ⟨rfl, hrest⟩ := ih (fun hm => ha (List.mem_cons_of_mem _ hm))
        (fun hm => ha' (List.mem_cons_of_mem _ hm)) h.2
      exact ⟨by rw [h.1], hrest⟩

/-- A host and a port look like an address when both look like a group. -/
theorem isIpv6Str_name_port (hname : ':' ∉ name) (hport : ':' ∉ port) :
    isIpv6Str d (name ++ ':' :: port) = true ↔ IsGroup name ∧ IsGroup port := by
  rw [isIpv6Str_iff]
  constructor
  · rintro (hx | hx)
    · obtain ⟨g, rest, hg, hrest, hx⟩ := mem_groups.mp hx
      rcases hx with hx | hx
      · obtain ⟨rfl, rfl⟩ := first_colon hname (colon_notMem_group hg) hx
        rcases hrest with hrest | hrest
        · exact ⟨hg, hrest⟩
        · exact absurd (colon_mem_groups hrest) hport
      · obtain ⟨rfl, rfl⟩ := first_colon hname (colon_notMem_group hg) hx
        exact absurd List.mem_cons_self hport
    · obtain ⟨inner, hinner, digits, -, hx⟩ := mem_bracketed.mp hx
      obtain ⟨a, b, rfl, ha⟩ := List.eq_append_cons_of_mem (colon_mem_groups hinner)
      have hfirst : ':' ∉ '[' :: a := by
        rw [List.mem_cons, not_or]
        exact ⟨by decide, ha⟩
      have hx' : name ++ ':' :: port = '[' :: a ++ ':' :: (b ++ ']' :: ':' :: digits) := by
        rw [hx]
        simp
      obtain ⟨-, rfl⟩ := first_colon hname hfirst hx'
      exact absurd (by simp) hport
  · rintro ⟨hg, hp⟩
    exact .inl (mem_groups.mpr ⟨name, port, hg, .inl hp, .inl rfl⟩)

/-! ### Numbers -/

theorem showI32_of_nonneg {n : Int} (h : 0 ≤ n) : showI32 n = Nat.toDigits 10 n.natAbs :=
  if_neg (Int.not_lt.mpr h)

theorem isDigit_showI32 {n : Int} (h : 0 ≤ n) : ∀ c ∈ showI32 n, c.isDigit = true := by
  rw [showI32_of_nonneg h]
  intro c hc
  exact Nat.isDigit_of_mem_toDigits (by decide) (by decide) hc

theorem showI32_ne_nil {n : Int} (h : 0 ≤ n) : showI32 n ≠ [] := by
  rw [showI32_of_nonneg h]
  exact Nat.toDigits_ne_nil

theorem notMem_showI32 {n : Int} (h : 0 ≤ n) {c : Char} (hc : c.isDigit = false) :
    c ∉ showI32 n := by
  intro hmem
  rw [isDigit_showI32 h c hmem] at hc
  exact absurd hc (by decide)

theorem mem_hexDigits_of_isDigit {c : Char} (h : c.isDigit = true) : c ∈ hexDigits := by
  rw [Char.isDigit, Bool.and_eq_true, decide_eq_true_eq, decide_eq_true_eq] at h
  have hval : 48 ≤ c.toNat ∧ c.toNat ≤ 57 := ⟨h.1, h.2⟩
  have hall : ∀ n, 48 ≤ n → n ≤ 57 → Char.ofNat n ∈ hexDigits := by decide
  rw [← Char.ofNat_toNat c]
  exact hall c.toNat hval.1 hval.2

theorem isGroup_showI32 {n : Int} (h : 0 ≤ n) : IsGroup (showI32 n) ↔ n < 10000 := by
  have hlen : (showI32 n).length ≤ 4 ↔ n.natAbs < 10 ^ 4 := by
    rw [showI32_of_nonneg h]
    exact Nat.length_toDigits_le_iff (by decide) (by decide)
  constructor
  · intro hg
    have := hlen.mp hg.length
    omega
  · intro hlt
    refine ⟨showI32_ne_nil h, hlen.mpr (by omega), ?_⟩
    exact fun c hc => mem_hexDigits_of_isDigit (isDigit_showI32 h c hc)

theorem parseI32_showI32 {n : Int} (h : 0 ≤ n) (hlt : n < 2 ^ 31) :
    parseI32 (showI32 n) = some n := by
  have hdigits := isDigit_showI32 h
  have hsigned : (match showI32 n with
      | '-' :: ds => (true, ds)
      | '+' :: ds => (false, ds)
      | ds => (false, ds) : Bool × List Char) = (false, showI32 n) := by
    cases hs : showI32 n with
    | nil => rfl
    | cons c ds =>
      have hc : c.isDigit = true := hdigits c (by rw [hs]; exact List.mem_cons_self)
      split
      · rename_i heq
        rw [List.cons.injEq] at heq
        rw [heq.1] at hc
        exact absurd hc (by decide)
      · rename_i heq
        rw [List.cons.injEq] at heq
        rw [heq.1] at hc
        exact absurd hc (by decide)
      · rfl
  have hempty : (showI32 n).isEmpty = false := by
    rw [List.isEmpty_eq_false_iff]
    exact showI32_ne_nil h
  have hall : (showI32 n).all Char.isDigit = true := List.all_eq_true.mpr hdigits
  have hval : ((Nat.ofDigitChars 10 (showI32 n) 0 : Nat) : Int) = n := by
    rw [showI32_of_nonneg h, Nat.ofDigitChars_ten_toDigits]
    omega
  unfold parseI32
  rw [hsigned]
  simp only [hempty, hall, Bool.not_true, Bool.or_self, Bool.false_eq_true, if_false, hval]
  rw [if_pos (by omega)]

theorem asI32_of_lt {n : Int} (h : 0 ≤ n) (hlt : n < 2 ^ 31) : asI32 n = n := by
  unfold asI32
  rw [Int.bmod_eq_of_le (by omega) (by omega)]

/-! ### A name with a port -/

theorem splitOn_name_port (hname : ':' ∉ name) (hport : ':' ∉ port) :
    (name ++ ':' :: port).splitOn ':' = [name, port] := by
  rw [List.splitOn_append_cons_self_of_not_mem hname, List.splitOn_eq_singleton hport]

theorem checkPort_name (hname : ':' ∉ name) (p : Int) :
    checkPort d name p = name ++ ':' :: showI32 p := by
  rw [checkPort, not_isIpv6Str_of_no_colon hname, if_neg Bool.false_ne_true, if_pos hname]

theorem splitHostPort_name (hname : ':' ∉ name) {p : Int} (hp : 1 ≤ p) (hlt : p < 2 ^ 31)
    (hno : isIpv6Str d (name ++ ':' :: showI32 p) = false) :
    splitHostPort d (name ++ ':' :: showI32 p) = some (name, p) := by
  have hport : ':' ∉ showI32 p := notMem_showI32 (by omega) (by decide)
  rw [splitHostPort, hno, if_neg Bool.false_ne_true, if_pos (by simp),
    splitOn_name_port hname hport]
  simp only [parseI32_showI32 (show 0 ≤ p by omega) hlt, Option.getD_some]
  rw [if_pos (by omega)]

theorem increasePort_name (hname : ':' ∉ name) {p : Int} (hp : 1 ≤ p) (hlt : p < 2 ^ 31)
    (hno : isIpv6Str d (name ++ ':' :: showI32 p) = false) {o : Int} (ho : 0 ≤ p + o)
    (holt : p + o < 2 ^ 31) :
    increasePort d (name ++ ':' :: showI32 p) o = name ++ ':' :: showI32 (p + o) := by
  have hport : ':' ∉ showI32 p := notMem_showI32 (by omega) (by decide)
  rw [increasePort, hno, if_neg Bool.false_ne_true, if_pos (by simp),
    splitOn_name_port hname hport]
  simp only [parseI32_showI32 (show 0 ≤ p by omega) hlt, Option.getD_some]
  rw [if_pos (by omega), asI32_of_lt ho holt]

/-! ### An address in brackets -/

theorem splitOnPair_self {w : List Char} {a b : Char} (hw : a ∉ w) : splitOnPair a b w = [w] := by
  fun_induction splitOnPair a b w with
  | case1 => rfl
  | case2 c => rfl
  | case3 c d rest hsep ih => exact absurd (hsep.1 ▸ List.mem_cons_self) hw
  | case4 c d rest hno hnil ih =>
    rw [ih (fun hm => hw (List.mem_cons_of_mem _ hm))] at hnil
    exact absurd hnil (List.cons_ne_nil _ _)
  | case5 c d rest hno part parts hparts ih =>
    rw [ih (fun hm => hw (List.mem_cons_of_mem _ hm)), List.cons.injEq] at hparts
    rw [← hparts.1, ← hparts.2]

theorem splitOnPair_cons {u w : List Char} {a b : Char} (hu : a ∉ u) :
    splitOnPair a b (u ++ a :: b :: w) = u :: splitOnPair a b w := by
  induction u with
  | nil => rw [List.nil_append, splitOnPair, if_pos ⟨rfl, rfl⟩]
  | cons c u ih =>
    have hc : c ≠ a := fun h => hu (h ▸ List.mem_cons_self)
    have ih := ih fun hm => hu (List.mem_cons_of_mem _ hm)
    rw [List.cons_append]
    cases hu' : u ++ a :: b :: w with
    | nil => simp at hu'
    | cons x xs =>
      rw [splitOnPair, if_neg (fun h => hc h.1), ← hu', ih]

theorem splitOnPair_append {u w : List Char} {a b : Char} (hu : a ∉ u) (hw : a ∉ w) :
    splitOnPair a b (u ++ a :: b :: w) = [u, w] := by
  rw [splitOnPair_cons hu, splitOnPair_self hw]

/-- The text that is in brackets. -/
structure Inner (t : List Char) : Prop where
  groups : t ∈ groups.matches'
  bracket : ']' ∉ t

variable {t : List Char}

theorem checkPort_inner (h : Inner t) (p : Int) :
    checkPort d t p = '[' :: t ++ ']' :: ':' :: showI32 p := by
  obtain ⟨c, tail, rfl, hc⟩ := head_of_groups h.groups
  have hhead : ¬(c :: tail).head? = some '[' := by
    rw [List.head?_cons, Option.some.injEq]
    rintro rfl
    exact absurd hc (by decide)
  rw [checkPort, isIpv6Str_iff.mpr (.inl h.groups), if_pos rfl, if_neg hhead]

theorem isIpv6Str_inner (h : Inner t) {p : Int} (hp : 0 ≤ p) :
    isIpv6Str d ('[' :: t ++ ']' :: ':' :: showI32 p) = true := by
  refine isIpv6Str_iff.mpr (.inr (mem_bracketed.mpr ⟨t, h.groups, showI32 p, ?_, rfl⟩))
  exact mem_many_oneOf (showI32_ne_nil hp) fun c hc => d.ascii c (isDigit_showI32 hp c hc)

theorem head?_brackets (t rest : List Char) : ('[' :: t ++ rest).head? = some '[' := rfl

theorem splitOnPair_inner (h : Inner t) {p : Int} (hp : 0 ≤ p) :
    splitOnPair ']' ':' ('[' :: t ++ ']' :: ':' :: showI32 p) = ['[' :: t, showI32 p] := by
  apply splitOnPair_append
  · rw [List.mem_cons, not_or]
    exact ⟨by decide, h.bracket⟩
  · exact notMem_showI32 hp (by decide)

theorem splitHostPort_inner (h : Inner t) {p : Int} (hp : 1 ≤ p) (hlt : p < 2 ^ 31) :
    splitHostPort d ('[' :: t ++ ']' :: ':' :: showI32 p) = some ('[' :: t ++ [']'], p) := by
  have hp0 : 0 ≤ p := by omega
  rw [splitHostPort, isIpv6Str_inner h hp0, if_pos rfl, if_pos (head?_brackets t _),
    splitOnPair_inner h hp0]
  simp only [parseI32_showI32 hp0 hlt, Option.getD_some]
  rw [if_pos (by omega)]

theorem increasePort_inner (h : Inner t) {p : Int} (hp : 1 ≤ p) (hlt : p < 2 ^ 31) {o : Int}
    (ho : 0 ≤ p + o) (holt : p + o < 2 ^ 31) :
    increasePort d ('[' :: t ++ ']' :: ':' :: showI32 p) o =
      '[' :: t ++ ']' :: ':' :: showI32 (p + o) := by
  have hp0 : 0 ≤ p := by omega
  rw [increasePort, isIpv6Str_inner h hp0, if_pos rfl, if_pos (head?_brackets t _),
    splitOnPair_inner h hp0]
  simp only [parseI32_showI32 hp0 hlt, Option.getD_some]
  rw [if_pos (by omega), asI32_of_lt ho holt]

/-! ### The text of an IPv6 address -/

theorem mem_hexDigits_toDigits (n : Nat) : ∀ c ∈ Nat.toDigits 16 n, c ∈ hexDigits := by
  have hdigit : ∀ k < 16, Nat.digitChar k ∈ hexDigits := by decide
  induction n using Nat.strongRecOn with
  | ind n ih =>
    intro c hc
    rw [Nat.toDigits_eq_if (by decide)] at hc
    split at hc
    · exact List.mem_singleton.mp hc ▸ hdigit n ‹_›
    · rcases List.mem_append.mp hc with hc | hc
      · exact ih (n / 16) (by omega) c hc
      · exact List.mem_singleton.mp hc ▸ hdigit (n % 16) (by omega)

theorem isGroup_segmentText (segment : UInt16) : IsGroup (segmentText segment) := by
  refine ⟨Nat.toDigits_ne_nil, ?_, mem_hexDigits_toDigits _⟩
  have hlt := segment.toNat_lt
  exact (Nat.length_toDigits_le_iff (by decide) (by decide)).mpr (by omega)

theorem segmentsText_ne_nil {segments : List UInt16} (h : segments ≠ []) :
    ∃ c tail, segmentsText segments = c :: tail ∧ c ∈ hexDigits := by
  have hfirst : ∀ (segment : UInt16) (rest : List Char),
      ∃ c tail, segmentText segment ++ rest = c :: tail ∧ c ∈ hexDigits := by
    intro segment rest
    have hg := isGroup_segmentText segment
    cases htext : segmentText segment with
    | nil => exact absurd htext hg.ne_nil
    | cons c tail =>
      have hc : c ∈ segmentText segment := by
        rw [htext]
        exact List.mem_cons_self
      exact ⟨c, tail ++ rest, rfl, hg.hex c hc⟩
  match segments, h with
  | [segment], _ => simpa [segmentsText] using hfirst segment []
  | segment :: next :: rest, _ => exact hfirst segment _

/-- One segment is a group, several are groups with colons. -/
theorem segmentsText_spec {segments : List UInt16} (h : segments ≠ []) :
    IsGroup (segmentsText segments) ∨ segmentsText segments ∈ groups.matches' := by
  induction segments with
  | nil => exact absurd rfl h
  | cons segment rest ih =>
    cases rest with
    | nil => exact .inl (isGroup_segmentText segment)
    | cons next rest =>
      exact .inr (mem_groups.mpr ⟨_, _, isGroup_segmentText segment, ih (List.cons_ne_nil _ _),
        .inl rfl⟩)

theorem segmentsText_groups {a b : UInt16} {rest : List UInt16} :
    segmentsText (a :: b :: rest) ∈ groups.matches' :=
  mem_groups.mpr ⟨_, _, isGroup_segmentText a, segmentsText_spec (List.cons_ne_nil _ _), .inl rfl⟩

/-- Segments on both sides of the double colon. -/
theorem compressed_groups {front back : List UInt16} (hf : front ≠ []) (hb : back ≠ []) :
    segmentsText front ++ ':' :: ':' :: segmentsText back ∈ groups.matches' := by
  induction front with
  | nil => exact absurd rfl hf
  | cons a front ih =>
    cases front with
    | nil => exact mem_groups.mpr ⟨_, _, isGroup_segmentText a, segmentsText_spec hb, .inr rfl⟩
    | cons b front =>
      refine mem_groups.mpr ⟨_, _, isGroup_segmentText a, .inr (ih (List.cons_ne_nil _ _)), .inl ?_⟩
      simp [segmentsText]

theorem bracket_notMem_segmentsText (segments : List UInt16) : ']' ∉ segmentsText segments := by
  have hone : ∀ segment, ']' ∉ segmentText segment := by
    intro segment hmem
    exact absurd ((isGroup_segmentText segment).hex _ hmem) (by decide)
  induction segments with
  | nil => exact List.not_mem_nil
  | cons segment rest ih =>
    cases rest with
    | nil => exact hone segment
    | cons next rest =>
      rw [segmentsText, List.mem_append, List.mem_cons, not_or, not_or]
      exact ⟨hone segment, by decide, ih⟩

/-- The text of an address begins and ends with a segment. -/
def Uncut (t : List Char) : Prop := t.head? ≠ some ':' ∧ t.getLast? ≠ some ':'

theorem getLast?_colons (front : List Char) (back : List UInt16) (hb : back = []) :
    (front ++ ':' :: ':' :: segmentsText back).getLast? = some ':' := by
  subst hb
  simp [segmentsText]

theorem inner_ipv6Text {segments : Vector UInt16 8} (h : Uncut (ipv6Text segments)) :
    Inner (ipv6Text segments) := by
  obtain ⟨hhead, hlast⟩ := h
  unfold ipv6Text at hhead hlast ⊢
  dsimp only at hhead hlast ⊢
  split at hhead
  · exact absurd rfl hhead
  · rename_i hmapped
    rw [if_neg hmapped] at hlast ⊢
    split at hhead
    · rename_i hspan
      rw [if_pos hspan] at hlast ⊢
      have hfront : segments.toList.take (zeroes segments.toList).start ≠ [] := by
        intro hnil
        rw [hnil] at hhead
        exact hhead rfl
      have hback : segments.toList.drop
          ((zeroes segments.toList).start + (zeroes segments.toList).len) ≠ [] := by
        intro hnil
        exact hlast (getLast?_colons _ _ hnil)
      refine ⟨compressed_groups hfront hback, ?_⟩
      rw [List.mem_append, List.mem_cons, List.mem_cons, not_or, not_or, not_or]
      exact ⟨bracket_notMem_segmentsText _, by decide, by decide, bracket_notMem_segmentsText _⟩
    · rename_i hspan
      rw [if_neg hspan]
      refine ⟨?_, bracket_notMem_segmentsText _⟩
      have hlen : segments.toList.length = 8 := segments.length_toList
      match segments.toList, hlen with
      | a :: b :: rest, _ => exact segmentsText_groups

/-- The last character of a match of the groups. -/
theorem getLast_of_groups (h : x ∈ groups.matches') : ∃ c ∈ hexDigits, x.getLast? = some c := by
  rw [groups, matches'_mul, Language.mem_mul] at h
  obtain ⟨a, -, b, hb, rfl⟩ := h
  have hg := mem_hexGroup.mp hb
  cases hlast : b.getLast? with
  | none => exact absurd (List.getLast?_eq_none_iff.mp hlast) hg.ne_nil
  | some c =>
    refine ⟨c, hg.hex c (List.mem_of_getLast? hlast), ?_⟩
    rw [List.getLast?_append, hlast]
    rfl

theorem uncut_segmentsText {segments : List UInt16} (h : segments ≠ []) :
    Uncut (segmentsText segments) := by
  obtain ⟨c, tail, htext, hc⟩ := segmentsText_ne_nil h
  constructor
  · rw [htext, List.head?_cons, ne_eq, Option.some.injEq]
    rintro rfl
    exact absurd hc (by decide)
  · intro hlast
    rcases segmentsText_spec h with hg | hg
    · exact colon_notMem_group hg (List.mem_of_getLast? hlast)
    · obtain ⟨c, hc, hlast'⟩ := getLast_of_groups hg
      rw [hlast, Option.some.injEq] at hlast'
      exact absurd (hlast' ▸ hc) (by decide)

/-- Text that begins with a digit and ends with a colon. -/
theorem not_isIpv6Str_of_colon_last {c : Char} {tail : List Char} (hc : c ∈ hexDigits)
    (hlast : (c :: tail).getLast? = some ':') : isIpv6Str d (c :: tail) = false := by
  rw [Bool.eq_false_iff]
  intro hmatch
  rcases isIpv6Str_iff.mp hmatch with hx | hx
  · obtain ⟨c', hc', hlast'⟩ := getLast_of_groups hx
    rw [hlast, Option.some.injEq] at hlast'
    exact absurd (hlast' ▸ hc') (by decide)
  · obtain ⟨inner, -, digits, -, heq⟩ := mem_bracketed.mp hx
    rw [List.cons_append, List.cons.injEq] at heq
    exact absurd (heq.1 ▸ hc) (by decide)

/-- An address that begins or ends with a colon has a double colon and is not recognised. -/
theorem not_isIpv6Str_ipv6Text (d : DecimalDigits) {segments : Vector UInt16 8}
    (h : ¬Uncut (ipv6Text segments)) :
    isIpv6Str d (ipv6Text segments) = false ∧
      ∃ a b, ipv6Text segments = a ++ ':' :: ':' :: b := by
  unfold ipv6Text at h ⊢
  dsimp only at h ⊢
  split at h
  · rename_i hmapped
    rw [if_pos hmapped]
    exact ⟨not_isIpv6Str_of_colon_head _, [], _, rfl⟩
  · rename_i hmapped
    rw [if_neg hmapped]
    split at h
    · rename_i hspan
      rw [if_pos hspan]
      refine ⟨?_, _, _, rfl⟩
      by_cases hfront : segments.toList.take (zeroes segments.toList).start = []
      · rw [hfront]
        exact not_isIpv6Str_of_colon_head _
      · obtain ⟨c, tail, htext, hc⟩ := segmentsText_ne_nil hfront
        rw [htext, List.cons_append] at h ⊢
        apply not_isIpv6Str_of_colon_last hc
        by_contra hlast
        refine h ⟨?_, hlast⟩
        rw [List.head?_cons, ne_eq, Option.some.injEq]
        rintro rfl
        exact absurd hc (by decide)
    · refine absurd (uncut_segmentsText ?_) h
      intro hnil
      have hlen : segments.toList.length = 8 := segments.length_toList
      rw [hnil] at hlen
      exact absurd hlen (by decide)

theorem splitHostPort_double_colon {a b : List Char}
    (hno : isIpv6Str d (a ++ ':' :: ':' :: b) = false) :
    splitHostPort d (a ++ ':' :: ':' :: b) = none := by
  rw [splitHostPort, hno, if_neg Bool.false_ne_true, if_pos (by simp)]
  have hsplit : (a ++ ':' :: ':' :: b).splitOn ':' =
      a.splitOn ':' ++ ([] : List Char) :: b.splitOn ':' := by
    rw [List.splitOn_append_cons_self]
    exact congrArg _ (List.splitOn_append_cons_self [] b)
  have ha := List.length_pos_iff.mpr (List.splitOn_ne_nil ':' a)
  have hb := List.length_pos_iff.mpr (List.splitOn_ne_nil ':' b)
  split
  · rename_i front port heq
    have hlen := congrArg List.length (hsplit.symm.trans heq)
    simp only [List.length_append, List.length_cons, List.length_nil] at hlen
    omega
  · rfl

/-! ### Round trips -/

inductive Host
  | name (name : List Char) (noColon : ':' ∉ name)
  | ipv4 (octets : Vector UInt8 4)
  | ipv6 (segments : Vector UInt16 8)

namespace Host

def text : Host → List Char
  | .name name _ => name
  | .ipv4 octets => ipv4Text octets
  | .ipv6 segments => ipv6Text segments

/-- The host as it stands before the port. -/
def beforePort : Host → List Char
  | .name name _ => name
  | .ipv4 octets => ipv4Text octets
  | .ipv6 segments => '[' :: ipv6Text segments ++ [']']

/-- The three functions agree about the host with this port. -/
structure RoundTrips (d : DecimalDigits) (h : Host) (p : Int) : Prop where
  split : splitHostPort d (checkPort d h.text p) = some (h.beforePort, p)
  check : ∀ q, checkPort d (checkPort d h.text p) q = checkPort d h.text p
  increase : ∀ o, 1 ≤ p + o → p + o ≤ 65535 →
    increasePort d (checkPort d h.text p) o = checkPort d h.text (p + o)

/-- A name is not taken for the first group of an address, and an address has a group of
digits at both ends. -/
def Recognised : Host → Int → Prop
  | .name name _, p => ¬(IsGroup name ∧ p < 10000)
  | .ipv4 _, _ => True
  | .ipv6 segments, _ => Uncut (ipv6Text segments)

end Host

theorem roundTrips_name (h : Host) (htext : h.text = name) (hbefore : h.beforePort = name)
    (hname : ':' ∉ name) {p : Int} (hp : 1 ≤ p) (hlt : p ≤ 65535) :
    h.RoundTrips d p ↔ ¬(IsGroup name ∧ p < 10000) := by
  have hport : ':' ∉ showI32 p := notMem_showI32 (by omega) (by decide)
  have hip : isIpv6Str d (name ++ ':' :: showI32 p) = true ↔ IsGroup name ∧ p < 10000 := by
    rw [isIpv6Str_name_port hname hport, isGroup_showI32 (by omega)]
  constructor
  · rintro ⟨hsplit, -, -⟩ hshort
    have hhead : ¬(name ++ ':' :: showI32 p).head? = some '[' := by
      cases hn : name with
      | nil => exact absurd hn hshort.1.ne_nil
      | cons c tail =>
        rw [List.cons_append, List.head?_cons, Option.some.injEq]
        rintro rfl
        exact absurd (hshort.1.hex '[' (by rw [hn]; exact List.mem_cons_self)) (by decide)
    rw [htext, checkPort_name hname, splitHostPort, hip.mpr hshort, if_pos rfl, if_neg hhead]
      at hsplit
    exact absurd hsplit (by simp)
  · intro hlong
    have hno : isIpv6Str d (name ++ ':' :: showI32 p) = false := by
      rw [Bool.eq_false_iff]
      exact fun h => hlong (hip.mp h)
    refine ⟨?_, ?_, ?_⟩
    · rw [htext, hbefore, checkPort_name hname, splitHostPort_name hname hp (by omega) hno]
    · intro q
      rw [htext, checkPort_name hname, checkPort, hno, if_neg Bool.false_ne_true,
        if_neg (by simp)]
    · intro o ho holt
      rw [htext, checkPort_name hname, checkPort_name hname,
        increasePort_name hname hp (by omega) hno (by omega) (by omega)]

theorem roundTrips_ipv6 (segments : Vector UInt16 8) {p : Int} (hp : 1 ≤ p) (hlt : p ≤ 65535) :
    (Host.ipv6 segments).RoundTrips d p ↔ Uncut (ipv6Text segments) := by
  constructor
  · rintro ⟨hsplit, -, -⟩
    by_contra hcut
    obtain ⟨hno, a, b, htext⟩ := not_isIpv6Str_ipv6Text d hcut
    have hcheck : checkPort d (ipv6Text segments) p = ipv6Text segments := by
      rw [checkPort, hno, if_neg Bool.false_ne_true, if_neg (by rw [htext]; simp)]
    rw [Host.text, hcheck] at hsplit
    rw [htext] at hsplit hno
    rw [splitHostPort_double_colon hno] at hsplit
    exact absurd hsplit (by simp)
  · intro huncut
    have hinner := inner_ipv6Text huncut
    refine ⟨?_, ?_, ?_⟩
    · rw [Host.text, checkPort_inner hinner, splitHostPort_inner hinner hp (by omega),
        Host.beforePort]
    · intro q
      rw [Host.text, checkPort_inner hinner, checkPort, isIpv6Str_inner hinner (by omega),
        if_pos rfl, if_pos (head?_brackets _ _)]
    · intro o ho holt
      rw [Host.text, checkPort_inner hinner, checkPort_inner hinner,
        increasePort_inner hinner hp (by omega) (by omega) (by omega)]

theorem mem_ipv4Text (octets : Vector UInt8 4) : ':' ∉ ipv4Text octets ∧ '.' ∈ ipv4Text octets := by
  have hdigit : ∀ (n : Nat) (c : Char), c ∈ Nat.toDigits 10 n → c.isDigit = true :=
    fun n c hc => Nat.isDigit_of_mem_toDigits (by decide) (by decide) hc
  have hcolon : ∀ n : Nat, ':' ∉ Nat.toDigits 10 n := by
    intro n hmem
    exact absurd (hdigit n ':' hmem) (by decide)
  unfold ipv4Text
  have hlen : octets.toList.length = 4 := octets.length_toList
  match octets.toList, hlen with
  | [a, b, c, e], _ => simp [List.intercalate, hcolon]

/-- The three functions agree about a host exactly when the regular expression recognises it
for what it is. -/
theorem host_port_round_trips (d : DecimalDigits) (h : Host) (p : Int) (hp : 1 ≤ p)
    (hlt : p ≤ 65535) : h.RoundTrips d p ↔ h.Recognised p := by
  cases h with
  | name name noColon =>
    have htext : (Host.name name noColon).text = name := rfl
    exact roundTrips_name _ htext rfl noColon hp hlt
  | ipv4 octets =>
    obtain ⟨hcolon, hdot⟩ := mem_ipv4Text octets
    have htext : (Host.ipv4 octets).text = ipv4Text octets := rfl
    refine (roundTrips_name _ htext rfl hcolon hp hlt).trans (iff_of_true ?_ trivial)
    rintro ⟨hg, -⟩
    exact absurd (hg.hex '.' hdot) (by decide)
  | ipv6 segments => exact roundTrips_ipv6 segments hp hlt

def asciiDigits : DecimalDigits where
  chars := (List.range 10).map Nat.digitChar
  ascii c hc := by
    have hdigit : ∀ k < 10, (Nat.digitChar k).toNat = k + 48 := by decide
    obtain ⟨hlo, hhi⟩ := Char.isDigit_iff_toNat.mp hc
    have hlo : 48 ≤ c.toNat := hlo
    have hhi : c.toNat ≤ 57 := hhi
    have hk : c.toNat - 48 < 10 := by omega
    refine List.mem_map.mpr ⟨c.toNat - 48, List.mem_range.mpr hk, ?_⟩
    rw [← Char.toNat_inj, hdigit _ hk]
    omega

def linkLocal : Host := .ipv6 #v[0xfe80, 0, 0, 0, 0, 0, 0, 1]

theorem host_port_round_trips_link_local : linkLocal.RoundTrips asciiDigits 21116 := by
  have h : Uncut linkLocal.text := ⟨by decide, by decide⟩
  exact (host_port_round_trips asciiDigits linkLocal 21116 (by decide) (by decide)).mpr h

/-- The loopback address is left without its port. -/
theorem loopback_port_lost :
    ¬(Host.ipv6 #v[0, 0, 0, 0, 0, 0, 0, 1]).RoundTrips asciiDigits 21116 := by
  intro h
  have hcut : (ipv6Text #v[0, 0, 0, 0, 0, 0, 0, 1]).head? = some ':' := by decide
  exact ((roundTrips_ipv6 _ (by decide) (by decide)).mp h).1 hcut

end RustDesk.HostPort
