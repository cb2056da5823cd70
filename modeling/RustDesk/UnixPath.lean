import RustDesk.SplitText
import Mathlib.Data.List.Induction

/-!
# Paths of a Unix file system

A path is its characters. `components` are those of the standard library: separators that
follow each other count once, and a `.` counts only where the path begins with it. Two paths
with the same components are equal as paths. `lexical` leaves the `.` out there as well, so
that it tells which file a path names when no directory entry is a link; of a path with a
relative one behind it, it is the one list behind the other.

`stays` follows the components of a path downwards and says whether it ever climbs above the
place it began at.
-/

namespace UnixPath

open SplitText

inductive Component
  | rootDir
  | curDir
  | parentDir
  | normal (seg : List Char)
  deriving DecidableEq, Repr

/-- What stands between two separators, where it counts. -/
def segment (seg : List Char) : Option Component :=
  if seg = [] ∨ seg = ['.'] then none
  else if seg = ['.', '.'] then some .parentDir
  else some (.normal seg)

def isAbsolute (p : List Char) : Bool := p.head? = some '/'

def root (p : List Char) : List Component := if isAbsolute p then [.rootDir] else []

/-- The components of a path apart from `.`. -/
def lexical (p : List Char) : List Component := root p ++ (p.splitOn '/').filterMap segment

def components (p : List Char) : List Component :=
  if (p.splitOn '/').head? = some ['.'] then .curDir :: lexical p else lexical p

/-- `PathBuf::push` and `Path::join`: an absolute path replaces the one before it. -/
def push (p q : List Char) : List Char :=
  if isAbsolute q then q
  else if p = [] ∨ p.getLast? = some '/' then p ++ q
  else p ++ '/' :: q

def fileName (p : List Char) : Option (List Char) :=
  match (lexical p).getLast? with
  | some (.normal seg) => some seg
  | _ => none

/-- The part of a name before its last dot and the part behind it, if the one before is not
empty. -/
def splitAtDot (name : List Char) : Option (List Char × List Char) :=
  let ext := (name.reverse.takeWhile (· ≠ '.')).reverse
  let stem := name.take (name.length - ext.length - 1)
  if '.' ∈ name ∧ stem ≠ [] then some (stem, ext) else none

def extension (p : List Char) : Option (List Char) :=
  (fileName p).bind fun name => (splitAtDot name).map (·.2)

def fileStem (p : List Char) : Option (List Char) :=
  (fileName p).map fun name => ((splitAtDot name).map (·.1)).getD name

/-- The segments of a path in front of its last component. -/
def above (p : List Char) : List (List Char) :=
  (((p.splitOn '/').reverse.dropWhile (segment · = none)).tail).reverse

/-- `Path::parent`, up to separators and `.` that do not count. -/
def parent (p : List Char) : Option (List Char) :=
  if lexical p = [.rootDir] ∨ components p = [] then none
  else if isAbsolute p then some ('/' :: ['/'].intercalate (above p).tail)
  else some (['/'].intercalate (above p))

def withFileName (p name : List Char) : List Char :=
  push (if (fileName p).isSome then (parent p).getD p else p) name

/-- `Path::with_extension`, up to separators and `.` that do not count. -/
def withExtension (p ext : List Char) : List Char :=
  match fileStem p with
  | none => p
  | some stem => withFileName p (stem ++ if ext = [] then [] else '.' :: ext)

/-- The segments behind those of a prefix, if the path begins with it. -/
def stripSegments : List (List Char) → List Component → Option (List (List Char))
  | segs, [] => some segs
  | [], _ :: _ => none
  | seg :: segs, c :: cs =>
    match segment seg with
    | none => stripSegments segs (c :: cs)
    | some x => if x = c then stripSegments segs cs else none

/-- Segments at the end that do not count are left out. -/
def trimRight (segs : List (List Char)) : List (List Char) :=
  (segs.reverse.dropWhile (segment · = none)).reverse

/-- What a walk that has passed the first component leaves of the path. -/
def restOf (segs : List (List Char)) : List Char :=
  ['/'].intercalate (trimRight (segs.dropWhile (segment · = none)))

/-- `Path::strip_prefix`: the characters that are left of the path. -/
def stripPrefix (p base : List Char) : Option (List Char) :=
  let segs := p.splitOn '/'
  match components base with
  | [] =>
    if isAbsolute p then some ('/' :: ['/'].intercalate (trimRight segs.tail))
    else if segs.head? = some ['.'] then some (['/'].intercalate (['.'] :: trimRight segs.tail))
    else some (['/'].intercalate (trimRight segs))
  | c :: cs =>
    if isAbsolute p then if c = .rootDir then (stripSegments segs cs).map restOf else none
    else if segs.head? = some ['.'] then
      if c = .curDir then (stripSegments segs.tail cs).map restOf else none
    else (stripSegments segs (c :: cs)).map restOf

/-- The walk along the components does not climb above the place where it is `depth` levels
down. -/
def stays : Nat → List Component → Bool
  | _, [] => true
  | _, .rootDir :: _ => false
  | depth, .curDir :: cs => stays depth cs
  | depth, .normal _ :: cs => stays (depth + 1) cs
  | depth, .parentDir :: cs => decide (0 < depth) && stays (depth - 1) cs

/-- A path goes on from the base without ever leaving it. -/
def Inside (base p : List Char) : Prop :=
  ∃ cs, lexical p = lexical base ++ cs ∧ stays 0 cs

/-- Nor is it the base itself. -/
def Below (base p : List Char) : Prop :=
  ∃ cs, cs ≠ [] ∧ lexical p = lexical base ++ cs ∧ stays 0 cs

/-! ### Segments -/

variable {p q seg : List Char}

theorem segment_of_long (h : 3 ≤ seg.length) : segment seg = some (.normal seg) := by
  have hshort : ¬ (seg = [] ∨ seg = ['.']) := by
    rintro (rfl | rfl)
    · simp at h
    · simp at h
  have hdots : seg ≠ ['.', '.'] := by
    rintro rfl
    simp at h
  rw [segment, if_neg hshort, if_neg hdots]

theorem segment_normal {s : List Char} (h : segment seg = some (.normal s)) : s = seg := by
  unfold segment at h
  split_ifs at h with hnone hdots
  · cases h
  · exact (Component.normal.inj (Option.some.inj h)).symm

theorem intercalate_append_suffix (init : List (List Char)) (last suffix : List Char) :
    ['/'].intercalate (init ++ [last ++ suffix]) = ['/'].intercalate (init ++ [last]) ++ suffix := by
  induction init with
  | nil => simp
  | cons a init ih =>
    rw [List.cons_append, List.cons_append, List.intercalate_cons_of_ne_nil (by simp),
      List.intercalate_cons_of_ne_nil (by simp), ih]
    simp

theorem splitOn_append_suffix {init : List (List Char)} {last suffix : List Char}
    (h : p.splitOn '/' = init ++ [last]) (hs : '/' ∉ suffix) :
    (p ++ suffix).splitOn '/' = init ++ [last ++ suffix] := by
  have hp : p = ['/'].intercalate (init ++ [last]) := by rw [← h, List.intercalate_splitOn]
  have hmem : ∀ l ∈ init ++ [last ++ suffix], '/' ∉ l := by
    intro l hl
    rcases List.mem_append.mp hl with hl | hl
    · exact notMem_of_mem_splitOn (h ▸ List.mem_append_left _ hl)
    · have hlast : '/' ∉ last := notMem_of_mem_splitOn (h ▸ List.mem_append_right _ (by simp))
      rw [List.mem_singleton.mp hl, List.mem_append]
      exact fun hor => hor.elim hlast hs
  have hcat : p ++ suffix = ['/'].intercalate (init ++ [last ++ suffix]) := by
    rw [intercalate_append_suffix, ← hp]
  rw [hcat]
  exact List.splitOn_intercalate '/' hmem (by simp)

theorem root_append (hp : p ≠ []) (q : List Char) : root (p ++ q) = root p := by
  cases p with
  | nil => exact absurd rfl hp
  | cons c p => rfl

theorem lexical_nil : lexical [] = [] := by decide

theorem lexical_sep (hp : p ≠ []) (q : List Char) :
    lexical (p ++ '/' :: q) = lexical p ++ (q.splitOn '/').filterMap segment := by
  rw [lexical, root_append hp, List.splitOn_append_cons_self, List.filterMap_append, lexical,
    List.append_assoc]

theorem lexical_relative (hq : isAbsolute q = false) :
    lexical q = (q.splitOn '/').filterMap segment := by
  rw [lexical, root, hq]
  rfl

theorem lexical_push (p : List Char) (hq : isAbsolute q = false) :
    lexical (push p q) = lexical p ++ lexical q := by
  rw [push, if_neg (by simp [hq])]
  split_ifs with hp
  · rcases hp with rfl | hlast
    · rw [lexical_nil]
      rfl
    · obtain ⟨a, rfl⟩ := List.getLast?_eq_some_iff.mp hlast
      rw [lexical_relative hq, lexical, lexical, root_append (by simp), List.append_assoc a,
        List.singleton_append, List.splitOn_append_cons_self, List.splitOn_append_cons_self,
        List.filterMap_append, List.filterMap_append, List.splitOn_nil]
      simp [segment]
  · rw [not_or] at hp
    rw [lexical_sep hp.1, lexical_relative hq]

/-! ### The last component -/

theorem exists_last (p : List Char) : ∃ init last, p.splitOn '/' = init ++ [last] :=
  ⟨_, _, (List.dropLast_concat_getLast (List.splitOn_ne_nil '/' p)).symm⟩

/-- The components in front of the last segment, whether that one counts or not. -/
theorem lexical_last {init : List (List Char)} {last : List Char}
    (h : p.splitOn '/' = init ++ [last]) :
    lexical p = (root p ++ init.filterMap segment) ++ (segment last).toList := by
  rw [lexical, h, List.filterMap_append, List.append_assoc]
  cases hs : segment last with
  | none => simp [hs]
  | some c => simp [hs]

theorem root_append_suffix {suffix : List Char} (hs : '/' ∉ suffix) : root (p ++ suffix) = root p := by
  cases p with
  | cons c p => rfl
  | nil =>
    cases suffix with
    | nil => rfl
    | cons c suffix =>
      have hc : c ≠ '/' := fun h => hs (by simp [h])
      simp [root, isAbsolute, hc]

/-- A long enough ending without a separator makes a last component of its own. -/
theorem lexical_append_suffix {suffix : List Char} (hs : '/' ∉ suffix) (hlen : 3 ≤ suffix.length)
    {init : List (List Char)} {last : List Char} (h : p.splitOn '/' = init ++ [last]) :
    lexical (p ++ suffix) =
      (root p ++ init.filterMap segment) ++ [Component.normal (last ++ suffix)] := by
  have hlong : segment (last ++ suffix) = some (.normal (last ++ suffix)) := by
    apply segment_of_long
    rw [List.length_append]
    omega
  rw [lexical_last (splitOn_append_suffix h hs), root_append_suffix hs, hlong]
  rfl

theorem stays_append_left {depth : Nat} {cs ds : List Component} (h : stays depth (cs ++ ds)) :
    stays depth cs := by
  induction cs generalizing depth with
  | nil => rfl
  | cons c cs ih =>
    cases c with
    | rootDir => cases h
    | curDir => exact ih h
    | normal seg => exact ih h
    | parentDir =>
      rw [List.cons_append, stays, Bool.and_eq_true] at h
      rw [stays, h.1, ih h.2]
      rfl

theorem stays_concat_normal {depth : Nat} {cs : List Component} (h : stays depth cs)
    (seg : List Char) : stays depth (cs ++ [Component.normal seg]) := by
  induction cs generalizing depth with
  | nil => rfl
  | cons c cs ih =>
    cases c with
    | rootDir => cases h
    | curDir => exact ih h
    | normal seg => exact ih h
    | parentDir =>
      rw [stays, Bool.and_eq_true] at h
      rw [List.cons_append, stays, h.1, ih h.2]
      rfl

/-! ### Inside a directory -/

variable {base : List Char}

theorem Below.inside (h : Below base p) : Inside base p := by
  obtain ⟨cs, -, hcs, hstays⟩ := h
  exact ⟨cs, hcs, hstays⟩

/-- Every path on the way from the base to a path inside it is inside it. -/
theorem Inside.of_between (h : Inside base p) (hq : lexical base <+: lexical q)
    (hqp : lexical q <+: lexical p) : Inside base q := by
  obtain ⟨cs, hcs, hstays⟩ := h
  obtain ⟨ds, hds⟩ := hq
  obtain ⟨es, hes⟩ := hqp
  refine ⟨ds, hds.symm, ?_⟩
  rw [hcs, ← hds, List.append_assoc, List.append_cancel_left_eq] at hes
  rw [← hes] at hstays
  exact stays_append_left hstays

theorem Below.of_concat {init : List Component} (hinit : ∃ cs, init = lexical base ++ cs ∧ stays 0 cs)
    (h : lexical p = init ++ [Component.normal seg]) : Below base p := by
  obtain ⟨cs, rfl, hstays⟩ := hinit
  refine ⟨cs ++ [Component.normal seg], by simp, ?_, stays_concat_normal hstays seg⟩
  rw [h, List.append_assoc]

/-- What is in front of the last component of a path below the base is still inside it. -/
theorem Below.init {init : List Component} {c : Component} (h : Below base p)
    (hp : lexical p = init ++ [c]) : ∃ cs, init = lexical base ++ cs ∧ stays 0 cs := by
  obtain ⟨cs, hne, hcs, hstays⟩ := h
  obtain ⟨ds, d, rfl⟩ := (List.eq_nil_or_concat cs).resolve_left hne
  rw [List.concat_eq_append] at hcs hstays
  rw [hp, ← List.append_assoc] at hcs
  exact ⟨ds, List.append_inj_left' hcs rfl, stays_append_left hstays⟩

theorem Below.append_suffix {suffix : List Char} (h : Below base p) (hs : '/' ∉ suffix)
    (hlen : 3 ≤ suffix.length) : Below base (p ++ suffix) := by
  obtain ⟨init, last, hlast⟩ := exists_last p
  have hp := lexical_last hlast
  refine Below.of_concat ?_ (lexical_append_suffix hs hlen hlast)
  cases hseg : segment last with
  | some c =>
    rw [hseg] at hp
    exact h.init hp
  | none =>
    rw [hseg, Option.toList_none, List.append_nil] at hp
    obtain ⟨cs, -, hcs, hstays⟩ := h
    exact ⟨cs, hp ▸ hcs, hstays⟩

/-! ### The parent of a path -/

theorem above_eq {a b : List (List Char)} {c : Component} (hp : p.splitOn '/' = a ++ seg :: b)
    (hseg : segment seg = some c) (hb : ∀ s ∈ b, segment s = none) : above p = a := by
  have hrev : (a ++ seg :: b).reverse = b.reverse ++ seg :: a.reverse := by simp
  have hnone : ∀ s ∈ b.reverse, decide (segment s = none) = true := by
    intro s hs
    simpa using hb s (List.mem_reverse.mp hs)
  rw [above, hp, hrev, List.dropWhile_append_of_pos hnone,
    List.dropWhile_cons_of_neg (by simp [hseg]), List.tail_cons, List.reverse_reverse]

theorem exists_last_filterMap {α β : Type*} {f : α → Option β} {l : List α} {c : β}
    (h : (l.filterMap f).getLast? = some c) :
    ∃ a x b, l = a ++ x :: b ∧ f x = some c ∧ ∀ y ∈ b, f y = none := by
  induction l using List.reverseRecOn with
  | nil => cases h
  | append_singleton l x ih =>
    cases hx : f x with
    | some d =>
      rw [List.filterMap_append, List.filterMap_cons_some hx, List.filterMap_nil,
        List.getLast?_concat] at h
      cases h
      exact ⟨l, x, [], rfl, hx, fun y hy => (by cases hy)⟩
    | none =>
      rw [List.filterMap_append, List.filterMap_cons_none hx, List.filterMap_nil,
        List.append_nil] at h
      obtain ⟨a, y, b, hl, hy, hb⟩ := ih h
      refine ⟨a, y, b ++ [x], by simp [hl], hy, ?_⟩
      intro z hz
      rcases List.mem_append.mp hz with hz | hz
      · exact hb z hz
      · rw [List.mem_singleton.mp hz, hx]

theorem exists_last_segment {c : Component} (h : (lexical p).getLast? = some c) (hc : c ≠ .rootDir) :
    ∃ a seg b, p.splitOn '/' = a ++ seg :: b ∧ segment seg = some c ∧ ∀ s ∈ b, segment s = none := by
  apply exists_last_filterMap
  rw [lexical, List.getLast?_append] at h
  cases hf : ((p.splitOn '/').filterMap segment).getLast? with
  | some d =>
    rw [hf] at h
    exact h
  | none =>
    rw [hf, root] at h
    split_ifs at h
    · cases h
      exact absurd rfl hc
    · cases h

theorem filterMap_intercalate {a : List (List Char)} (ha : ∀ s ∈ a, '/' ∉ s) :
    ((['/'].intercalate a).splitOn '/').filterMap segment = a.filterMap segment := by
  by_cases hnil : a = []
  · subst hnil
    rfl
  · rw [List.splitOn_intercalate '/' ha hnil]

theorem isAbsolute_intercalate {s : List Char} {a : List (List Char)} (hs : '/' ∉ s) (hne : s ≠ []) :
    isAbsolute (['/'].intercalate (s :: a)) = false := by
  cases s with
  | nil => exact absurd rfl hne
  | cons c s =>
    have hc : c ≠ '/' := fun h => hs (by simp [h])
    rw [List.intercalate_cons_cons_left]
    simp [isAbsolute, hc]

/-- The parent of an absolute path keeps the root, which stands in front of the first segment. -/
theorem lexical_parent_absolute {a b : List (List Char)} (habs : isAbsolute p = true)
    (hsplit : p.splitOn '/' = a ++ seg :: b) (hseg : seg ≠ []) (hmem : ∀ s ∈ a, '/' ∉ s) :
    lexical ('/' :: ['/'].intercalate a.tail) = root p ++ a.filterMap segment := by
  obtain ⟨r, rfl⟩ : ∃ r, p = '/' :: r := by
    cases p with
    | nil => cases habs
    | cons d r =>
      simp only [isAbsolute, List.head?_cons, decide_eq_true_eq, Option.some.injEq] at habs
      exact ⟨r, by rw [habs]⟩
  rw [List.splitOn_cons_eq_if_modifyHead, if_pos (by simp)] at hsplit
  cases a with
  | nil => exact absurd (List.cons.inj hsplit).1.symm hseg
  | cons s a =>
    obtain ⟨rfl, -⟩ := List.cons.inj hsplit
    rw [List.tail_cons, lexical, List.splitOn_cons_eq_if_modifyHead, if_pos (by simp),
      List.filterMap_cons_none (by simp [segment]), List.filterMap_cons_none (by simp [segment]),
      filterMap_intercalate fun s hs => hmem s (List.mem_cons_of_mem _ hs)]
    rfl

theorem lexical_parent_relative {a b : List (List Char)} (habs : isAbsolute p = false)
    (hsplit : p.splitOn '/' = a ++ seg :: b) (hmem : ∀ s ∈ a, '/' ∉ s) :
    lexical (['/'].intercalate a) = root p ++ a.filterMap segment := by
  have hrel : isAbsolute (['/'].intercalate a) = false := by
    cases a with
    | nil => rfl
    | cons s a =>
      refine isAbsolute_intercalate (hmem s List.mem_cons_self) ?_
      rintro rfl
      have hp : p = ['/'].intercalate ([] :: (a ++ seg :: b)) := by
        rw [← List.cons_append, ← hsplit, List.intercalate_splitOn]
      rw [List.intercalate_cons_of_ne_nil (by simp)] at hp
      rw [hp] at habs
      cases habs
  rw [lexical_relative hrel, filterMap_intercalate hmem, root, habs]
  rfl

theorem lexical_parent {init : List Component} {c : Component} (h : lexical p = init ++ [c])
    (hc : c ≠ .rootDir) : ∃ q, parent p = some q ∧ lexical q = init := by
  obtain ⟨a, seg, b, hsplit, hseg, hb⟩ := exists_last_segment (by rw [h, List.getLast?_concat]) hc
  have habove := above_eq hsplit hseg hb
  have hinit : init = root p ++ a.filterMap segment := by
    have hnone : b.filterMap segment = [] := List.filterMap_eq_nil_iff.mpr hb
    rw [lexical, hsplit, List.filterMap_append, List.filterMap_cons_some hseg, hnone,
      ← List.append_assoc] at h
    exact (List.append_inj_left' h rfl).symm
  have hmem : ∀ s ∈ a, '/' ∉ s := fun s hs =>
    notMem_of_mem_splitOn (hsplit ▸ List.mem_append_left _ hs)
  have hsome : ¬ (lexical p = [.rootDir] ∨ components p = []) := by
    rintro (hroot | hnil)
    · rw [h] at hroot
      cases init with
      | nil =>
        cases hroot
        exact hc rfl
      | cons d init => simp at hroot
    · unfold components at hnil
      split_ifs at hnil
      rw [h] at hnil
      simp at hnil
  have hfirst : seg ≠ [] := by
    rintro rfl
    simp [segment] at hseg
  rw [parent, if_neg hsome, habove, hinit]
  by_cases habs : isAbsolute p = true
  · rw [if_pos habs]
    exact ⟨_, rfl, lexical_parent_absolute habs hsplit hfirst hmem⟩
  · rw [if_neg habs]
    exact ⟨_, rfl, lexical_parent_relative (Bool.eq_false_iff.mpr habs) hsplit hmem⟩

theorem lexical_name {name : List Char} (hname : '/' ∉ name)
    (hseg : segment name = some (.normal name)) :
    isAbsolute name = false ∧ lexical name = [.normal name] := by
  have habs : isAbsolute name = false := by
    cases name with
    | nil => rfl
    | cons c name =>
      have hc : c ≠ '/' := fun h => hname (by simp [h])
      simp [isAbsolute, hc]
  refine ⟨habs, ?_⟩
  rw [lexical_relative habs, List.splitOn_eq_singleton hname]
  simp [hseg]

theorem lexical_withFileName {name : List Char} {init : List Component}
    (h : lexical p = init ++ [Component.normal seg]) (hname : '/' ∉ name) (hlen : 3 ≤ name.length) :
    lexical (withFileName p name) = init ++ [Component.normal name] := by
  obtain ⟨habs, hlex⟩ := lexical_name hname (segment_of_long hlen)
  obtain ⟨q, hq, hinit⟩ := lexical_parent h (by simp)
  have hfile : fileName p = some seg := by simp [fileName, h]
  rw [withFileName, hfile, hq]
  change lexical (push q name) = _
  rw [lexical_push q habs, hinit, hlex]

theorem Below.withFileName {name : List Char} (h : Below base p) (hp : (fileName p).isSome)
    (hname : '/' ∉ name) (hlen : 3 ≤ name.length) : Below base (withFileName p name) := by
  obtain ⟨init, seg, hlast⟩ : ∃ init seg, lexical p = init ++ [Component.normal seg] := by
    unfold fileName at hp
    split at hp
    · rename_i seg hseg
      obtain ⟨init, hinit⟩ := List.getLast?_eq_some_iff.mp hseg
      exact ⟨init, seg, hinit⟩
    · cases hp
  exact Below.of_concat (h.init hlast) (lexical_withFileName hlast hname hlen)

theorem rootDir_notMem_of_stays {depth : Nat} {cs : List Component} (h : stays depth cs) :
    .rootDir ∉ cs := by
  induction cs generalizing depth with
  | nil => exact List.not_mem_nil
  | cons c cs ih =>
    cases c with
    | rootDir => cases h
    | curDir => simpa using ih h
    | normal seg => simpa using ih h
    | parentDir =>
      rw [stays, Bool.and_eq_true] at h
      simpa using ih h.2

theorem Below.parent {q : List Char} (h : Below base p) (hq : UnixPath.parent p = some q) :
    Inside base q := by
  obtain ⟨cs, hne, hcs, hstays⟩ := h
  obtain ⟨ds, d, rfl⟩ := (List.eq_nil_or_concat cs).resolve_left hne
  rw [List.concat_eq_append] at hcs hstays
  rw [← List.append_assoc] at hcs
  have hd : d ≠ .rootDir := by
    rintro rfl
    exact rootDir_notMem_of_stays hstays (by simp)
  obtain ⟨r, hr, hlex⟩ := lexical_parent hcs hd
  rw [hq] at hr
  cases hr
  exact ⟨ds, hlex, stays_append_left hstays⟩

theorem below_iff : Below base p ↔ lexical base <+: lexical p ∧ lexical p ≠ lexical base ∧
    stays 0 ((lexical p).drop (lexical base).length) := by
  constructor
  · rintro ⟨cs, hne, hcs, hstays⟩
    rw [hcs, List.drop_left]
    exact ⟨List.prefix_append _ _, by simpa using hne, hstays⟩
  · rintro ⟨⟨cs, hcs⟩, hne, hstays⟩
    rw [← hcs, List.drop_left] at hstays
    refine ⟨cs, ?_, hcs.symm, hstays⟩
    rintro rfl
    rw [List.append_nil] at hcs
    exact hne hcs.symm

instance decidableBelow (base p : List Char) : Decidable (Below base p) :=
  decidable_of_iff _ below_iff.symm

theorem inside_iff : Inside base p ↔ lexical base <+: lexical p ∧
    stays 0 ((lexical p).drop (lexical base).length) := by
  constructor
  · rintro ⟨cs, hcs, hstays⟩
    rw [hcs, List.drop_left]
    exact ⟨List.prefix_append _ _, hstays⟩
  · rintro ⟨⟨cs, hcs⟩, hstays⟩
    rw [← hcs, List.drop_left] at hstays
    exact ⟨cs, hcs.symm, hstays⟩

instance decidableInside (base p : List Char) : Decidable (Inside base p) :=
  decidable_of_iff _ inside_iff.symm

/-! ### The parts of a name -/

theorem notMem_fileName (h : fileName p = some seg) : '/' ∉ seg := by
  unfold fileName at h
  split at h
  · rename_i s hlast
    cases h
    obtain ⟨a, s, b, hsplit, hs, -⟩ := exists_last_segment hlast (by simp)
    have hmem : s ∈ p.splitOn '/' := by simp [hsplit]
    rw [segment_normal hs]
    exact notMem_of_mem_splitOn hmem
  · cases h

theorem mem_of_splitAtDot {name stem ext : List Char} (h : splitAtDot name = some (stem, ext)) :
    stem ≠ [] ∧ (∀ c ∈ stem, c ∈ name) ∧ ∀ c ∈ ext, c ∈ name := by
  unfold splitAtDot at h
  dsimp only at h
  split_ifs at h with hdot
  simp only [Option.some.injEq, Prod.mk.injEq] at h
  obtain ⟨rfl, rfl⟩ := h
  refine ⟨hdot.2, fun c hc => List.mem_of_mem_take hc, fun c hc => ?_⟩
  rw [List.mem_reverse] at hc
  exact List.mem_reverse.mp (List.takeWhile_subset _ hc)

theorem splitAtDot_append {ext : List Char} (hext : '.' ∉ ext) (stem : List Char) :
    splitAtDot (stem ++ '.' :: ext) = if stem ≠ [] then some (stem, ext) else none := by
  have hrev : (stem ++ '.' :: ext).reverse.takeWhile (fun c => decide (c ≠ '.')) = ext.reverse := by
    rw [List.reverse_append, List.reverse_cons, List.append_assoc, List.takeWhile_append_of_pos]
    · simp
    · intro c hc
      have hne : c ≠ '.' := by
        rintro rfl
        exact hext (List.mem_reverse.mp hc)
      simpa using hne
  have hlen : (stem ++ '.' :: ext).length - ext.length - 1 = stem.length := by
    rw [List.length_append, List.length_cons]
    omega
  unfold splitAtDot
  dsimp only
  rw [hrev, List.reverse_reverse, hlen, List.take_left]
  simp

theorem splitAtDot_of_notMem {name : List Char} (h : '.' ∉ name) : splitAtDot name = none := by
  unfold splitAtDot
  exact if_neg fun hdot => h hdot.1

theorem exists_last_dot {name : List Char} (h : '.' ∈ name) :
    ∃ stem ext, name = stem ++ '.' :: ext ∧ '.' ∉ ext := by
  obtain ⟨a, b, hab, hna⟩ := List.eq_append_cons_of_mem (List.mem_reverse.mpr h)
  refine ⟨b.reverse, a.reverse, ?_, by simpa using hna⟩
  rw [← List.reverse_reverse name, hab]
  simp

theorem extension_spec {ext : List Char} (h : extension p = some ext) :
    ∃ stem, fileStem p = some stem ∧ stem ≠ [] ∧ (fileName p).isSome ∧ '/' ∉ stem ∧ '/' ∉ ext := by
  unfold extension at h
  obtain ⟨name, hname, h⟩ := Option.bind_eq_some_iff.mp h
  obtain ⟨⟨stem, ext'⟩, hsplit, rfl⟩ := Option.map_eq_some_iff.mp h
  obtain ⟨hne, hstem, hext⟩ := mem_of_splitAtDot hsplit
  have hsep := notMem_fileName hname
  refine ⟨stem, ?_, hne, by rw [hname]; rfl, fun hc => hsep (hstem _ hc), fun hc => hsep (hext _ hc)⟩
  simp [fileStem, hname, hsplit]

/-! ### What a stripped path is made of -/

theorem stripSegments_subset {segs rest : List (List Char)} {cs : List Component}
    (h : stripSegments segs cs = some rest) : rest ⊆ segs := by
  fun_induction stripSegments segs cs with
  | case1 segs => exact (Option.some.inj h).symm ▸ List.Subset.refl _
  | case2 => cases h
  | case3 seg segs c cs _ ih => exact List.subset_cons_of_subset _ (ih h)
  | case4 seg segs c cs _ ih => exact List.subset_cons_of_subset _ (ih h)
  | case5 => cases h

theorem trimRight_subset (segs : List (List Char)) : trimRight segs ⊆ segs := by
  intro seg h
  rw [trimRight, List.mem_reverse] at h
  exact List.mem_reverse.mp ((List.dropWhile_suffix _).subset h)

/-- A stripped path has no characters of its own, apart from the separator and the dot. -/
theorem mem_stripPrefix {base : List Char} {c : Char} (h : stripPrefix p base = some q)
    (hc : c ∈ q) : c ∈ p ∨ c = '/' ∨ c = '.' := by
  have hjoin : ∀ segs : List (List Char), segs ⊆ p.splitOn '/' → c ∈ ['/'].intercalate segs →
      c ∈ p ∨ c = '/' ∨ c = '.' := by
    intro segs hsub hmem
    rcases mem_intercalate hmem with rfl | ⟨seg, hseg, hc⟩
    · exact .inr (.inl rfl)
    · exact .inl (mem_of_mem_splitOn (hsub hseg) hc)
  have hrest : ∀ segs, segs ⊆ p.splitOn '/' → c ∈ restOf segs → c ∈ p ∨ c = '/' ∨ c = '.' := by
    intro segs hsub hmem
    refine hjoin _ (fun seg hseg => hsub ?_) hmem
    exact (List.dropWhile_suffix _).subset (trimRight_subset _ hseg)
  have htail : (p.splitOn '/').tail ⊆ p.splitOn '/' := (List.tail_suffix _).subset
  unfold stripPrefix at h
  dsimp only at h
  split at h
  · split_ifs at h with habs hdot
    · cases h
      rcases List.mem_cons.mp hc with rfl | hc
      · exact .inr (.inl rfl)
      · exact hjoin _ (List.Subset.trans (trimRight_subset _) htail) hc
    · cases h
      rcases mem_intercalate hc with rfl | ⟨seg, hseg, hc⟩
      · exact .inr (.inl rfl)
      · rcases List.mem_cons.mp hseg with rfl | hseg
        · exact .inr (.inr (List.mem_singleton.mp hc))
        · exact .inl (mem_of_mem_splitOn (htail (trimRight_subset _ hseg)) hc)
    · cases h
      exact hjoin _ (trimRight_subset _) hc
  · split_ifs at h
    · obtain ⟨segs, hsegs, rfl⟩ := Option.map_eq_some_iff.mp h
      exact hrest segs (stripSegments_subset hsegs) hc
    · obtain ⟨segs, hsegs, rfl⟩ := Option.map_eq_some_iff.mp h
      exact hrest segs (List.Subset.trans (stripSegments_subset hsegs) htail) hc
    · obtain ⟨segs, hsegs, rfl⟩ := Option.map_eq_some_iff.mp h
      exact hrest segs (stripSegments_subset hsegs) hc

end UnixPath
