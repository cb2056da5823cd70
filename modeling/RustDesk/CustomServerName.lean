import Mathlib.Data.Bool.AllAny
import RustDesk.LowerCase
import RustDesk.HostPort
import RustDesk.SplitText

/-!
# Server settings in the name of the executable

A renamed executable carries the settings of its server in its name: behind `host=` there are
fields, with commas between them. The name is searched in its lower case and cut at the place that is
found there. Otherwise the name carries a signed configuration, which is left to `fromConfig`.
-/

namespace RustDesk.CustomServerName

open LowerCase
open HostPort (splitOnPair)

inductive Field
  | host
  | key
  | api
  | relay
  deriving DecidableEq, Repr

def Field.text : Field → List Char
  | .host => "host=".toList
  | .key => "key=".toList
  | .api => "api=".toList
  | .relay => "relay=".toList

structure CustomServer where
  key : List Char := []
  host : List Char := []
  api : List Char := []
  relay : List Char := []
  deriving DecidableEq, Repr

namespace CustomServer

def get (server : CustomServer) : Field → List Char
  | .host => server.host
  | .key => server.key
  | .api => server.api
  | .relay => server.relay

def set (server : CustomServer) (value : List Char) : Field → CustomServer
  | .host => { server with host := value }
  | .key => { server with key := value }
  | .api => { server with api := value }
  | .relay => { server with relay := value }

end CustomServer

inductive Outcome
  | ok (server : CustomServer)
  | failed
  | panic
  deriving DecidableEq, Repr

variable (l : Lowercase)

def readField (el : List Char) (server : CustomServer) (f : Field) : CustomServer :=
  if f.text.isPrefixOf (l.text el) then server.set (el.drop f.text.length) f else server

def readElement (server : CustomServer) (el : List Char) : CustomServer :=
  [Field.host, Field.key, Field.api, Field.relay].foldl (readField l el) server

/-- The text without `.exe.exe` or `.exe` at its end; `none` is a panic. -/
def stripExe (s : List Char) : Option (List Char) :=
  if ".exe.exe".toList.isSuffixOf (l.text s) then sliceTo s (utf8Len s - 8)
  else if ".exe".toList.isSuffixOf (l.text s) then sliceTo s (utf8Len s - 4)
  else some s

def isWhiteSpace (c : Char) : Bool :=
  let n := c.toNat
  (9 ≤ n && n ≤ 13) || n == 0x20 || n == 0x85 || n == 0xA0 || n == 0x1680 || (0x2000 ≤ n && n ≤ 0x200A) ||
    n == 0x2028 || n == 0x2029 || n == 0x202F || n == 0x205F || n == 0x3000

def trim (s : List Char) : List Char :=
  ((s.dropWhile isWhiteSpace).reverse.dropWhile isWhiteSpace).reverse

/-- `str::replace`, for a pattern that is not empty. -/
def replace (w by' : List Char) (s : List Char) : List Char :=
  match s with
  | [] => []
  | c :: s =>
    if w.isPrefixOf (c :: s) ∧ w ≠ [] then by' ++ replace w by' (s.drop (w.length - 1))
    else c :: replace w by' s
  termination_by s.length
  decreasing_by
    · simp only [List.length_drop, List.length_cons]
      omega
    · simp

/-- The parts of a name that has no `host=`: the first that is a configuration counts. -/
def readLicence (fromConfig : List Char → Option CustomServer) (s : List Char) : Option CustomServer :=
  let s := replace "-licensed---".toList "--".toList s
  let s := replace "-licensed--".toList "--".toList s
  let s := replace "-licensed-".toList "--".toList s
  (splitOnPair '-' '-' s).findSome? fun s =>
    match fromConfig (trim s) with
    | some lic => some lic
    | none => if '(' ∈ s then (s.splitOn '(').findSome? fun s => fromConfig (trim s) else none

def getCustomServerFromString (fromConfig : List Char → Option CustomServer) (s : List Char) : Outcome :=
  match stripExe l s with
  | none => .panic
  | some s =>
    match findBytes Field.host.text (l.text s) with
    | some n =>
      match sliceFrom s n with
      | none => .panic
      | some stripped => .ok ((stripped.splitOn ',').foldl (readElement l) {})
    | none =>
      match readLicence fromConfig s with
      | some lic => .ok lic
      | none => .failed

/-! ### What the loop reads -/

variable {s p t a b e u : List Char} {f g : Field} {els : List (List Char)}

def named (f : Field) (el : List Char) : Bool := f.text.isPrefixOf (l.fold el)

/-- The last of the elements that names the field. -/
def lastNamed (f : Field) (els : List (List Char)) : Option (List Char) := (els.filter (named l f)).getLast?

theorem ascii_of_mem_text (f : Field) : ∀ d ∈ f.text, d.toNat < 0x80 := by
  -- Decided over the text; over the type of characters there would be too many cases.
  cases f <;> exact List.all_iff_forall_prop.mp (by decide)

theorem isPrefixOf_lower (f : Field) (el : List Char) : f.text.isPrefixOf (l.text el) = named l f el :=
  l.isPrefixOf_text (fun d hd => Lowercase.plain_of_ascii (ascii_of_mem_text f d hd)) el

@[simp] theorem CustomServer.get_set (server : CustomServer) (value : List Char) (f g : Field) :
    (server.set value f).get g = if f = g then value else server.get g := by
  cases f <;> cases g <;> rfl

theorem CustomServer.ext_get {x y : CustomServer} (h : ∀ f, x.get f = y.get f) : x = y := by
  have hkey : x.key = y.key := h .key
  have hhost : x.host = y.host := h .host
  have hapi : x.api = y.api := h .api
  have hrelay : x.relay = y.relay := h .relay
  cases x
  cases y
  simp_all

@[simp] theorem CustomServer.get_empty (f : Field) : ({} : CustomServer).get f = [] := by
  cases f <;> rfl

theorem get_readField (el : List Char) (server : CustomServer) (f g : Field) :
    (readField l el server f).get g =
      if f = g ∧ named l g el then el.drop g.text.length else server.get g := by
  rw [readField, isPrefixOf_lower]
  by_cases hf : f = g
  · subst hf
    by_cases hn : named l f el = true
    · rw [if_pos hn, if_pos ⟨rfl, hn⟩, CustomServer.get_set, if_pos rfl]
    · rw [if_neg hn, if_neg fun h => hn h.2]
  · rw [if_neg fun h : f = g ∧ _ => hf h.1]
    by_cases hn : named l f el = true
    · rw [if_pos hn, CustomServer.get_set, if_neg hf]
    · rw [if_neg hn]

theorem get_readElement (server : CustomServer) (el : List Char) (g : Field) :
    (readElement l server el).get g = if named l g el then el.drop g.text.length else server.get g := by
  rw [readElement]
  simp only [List.foldl_cons, List.foldl_nil, get_readField]
  cases g <;> simp

theorem lastNamed_append (f : Field) (xs ys : List (List Char)) :
    lastNamed l f (xs ++ ys) = (lastNamed l f ys).or (lastNamed l f xs) := by
  rw [lastNamed, List.filter_append, List.getLast?_append]
  rfl

theorem lastNamed_cons (f : Field) (el : List Char) (els : List (List Char)) :
    lastNamed l f (el :: els) = (lastNamed l f els).or (if named l f el then some el else none) := by
  rw [← List.singleton_append, lastNamed_append]
  by_cases hn : named l f el = true
  · rw [if_pos hn, lastNamed, lastNamed, List.filter_cons_of_pos hn]
    rfl
  · rw [if_neg hn, lastNamed, lastNamed, List.filter_cons_of_neg hn]
    rfl

theorem lastNamed_eq_none (h : ∀ el ∈ els, named l f el = false) : lastNamed l f els = none := by
  rw [lastNamed, List.getLast?_eq_none_iff, List.filter_eq_nil_iff]
  intro el hel
  simp [h el hel]

/-- The loop keeps, for each field, what stands behind its name in the last element that names it. -/
theorem get_readElements (els : List (List Char)) (server : CustomServer) (f : Field) :
    (els.foldl (readElement l) server).get f =
      ((lastNamed l f els).map (·.drop f.text.length)).getD (server.get f) := by
  induction els generalizing server with
  | nil => rfl
  | cons el els ih =>
    rw [List.foldl_cons, ih, lastNamed_cons, get_readElement]
    cases lastNamed l f els with
    | some last => rfl
    | none =>
      by_cases hn : named l f el = true
      · rw [if_pos hn, if_pos hn]
        rfl
      · rw [if_neg hn, if_neg hn]
        rfl

/-! ### The end of the name, and the place of the host in it -/

/-- `.exe.exe`, or `.exe` or nothing where the text before does not end so. -/
def ExeEnd (body e : List Char) : Prop :=
  l.fold e = ".exe.exe".toList ∨ (l.fold e = ".exe".toList ∨ e = []) ∧ ¬ ".exe".toList <:+ l.fold body

theorem exe_exe : ".exe.exe".toList = ".exe".toList ++ ".exe".toList := by
  decide +kernel

theorem mem_exe_exe : ∀ d ∈ ".exe.exe".toList, d.toNat < 0x80 ∧ d ≠ 'i' ∧ d ≠ 'k' :=
  List.all_iff_forall_prop.mp (by decide +kernel)

theorem mem_exe : ∀ d ∈ ".exe".toList, d.toNat < 0x80 ∧ d ≠ 'i' ∧ d ≠ 'k' :=
  List.all_iff_forall_prop.mp (by decide +kernel)

theorem isSuffixOf_lower {w : List Char} (hw : ∀ d ∈ w, d.toNat < 0x80 ∧ d ≠ 'i' ∧ d ≠ 'k') (s : List Char) :
    w.isSuffixOf (l.text s) = true ↔ w <:+ l.fold s := by
  rw [l.isSuffixOf_text fun d hd => Lowercase.plain_of_ascii (hw d hd).1, List.isSuffixOf_iff_suffix]

theorem sliceTo_of_fold {w : List Char} (hw : ∀ d ∈ w, d.toNat < 0x80 ∧ d ≠ 'i' ∧ d ≠ 'k') (he : l.fold e = w)
    (body : List Char) : sliceTo (body ++ e) (utf8Len (body ++ e) - w.length) = some body := by
  have hlen : utf8Len e = w.length := by
    rw [l.utf8Len_of_fold fun d hd => hw d (he ▸ hd), he]
  rw [utf8Len_append, hlen, Nat.add_sub_cancel, sliceTo_append]

theorem stripExe_append {body : List Char} (h : ExeEnd l body e) : stripExe l (body ++ e) = some body := by
  rw [stripExe]
  rcases h with he | ⟨he | rfl, hbody⟩
  · rw [if_pos]
    · exact sliceTo_of_fold l mem_exe_exe he body
    · rw [isSuffixOf_lower l mem_exe_exe, l.fold_append, he]
      exact List.suffix_append _ _
  · rw [if_neg, if_pos]
    · exact sliceTo_of_fold l mem_exe he body
    · rw [isSuffixOf_lower l mem_exe, l.fold_append, he]
      exact List.suffix_append _ _
    · rw [isSuffixOf_lower l mem_exe_exe, l.fold_append, he, exe_exe, List.suffix_append_self_iff]
      exact hbody
  · rw [List.append_nil, if_neg, if_neg]
    · rw [isSuffixOf_lower l mem_exe]
      exact hbody
    · rw [isSuffixOf_lower l mem_exe_exe, exe_exe]
      exact fun h => hbody ((List.suffix_append _ _).trans h)

theorem exists_of_suffix {w : List Char} (hw : ∀ d ∈ w, d.toNat < 0x80 ∧ d ≠ 'i' ∧ d ≠ 'k') (hne : w ≠ [])
    (h : w <:+ l.fold s) : ∃ body e, s = body ++ e ∧ l.fold e = w := by
  obtain ⟨x, hx⟩ := h
  have halone : ∀ d ∈ w, l.Alone d := fun d hd => l.alone_of_ascii (hw d hd).1 (hw d hd).2.1
  obtain ⟨q, g, r, rfl, -, hg, hr⟩ := l.split_fold halone hne (x := x) (y := []) (by rw [List.append_nil, hx])
  have hnil : r = [] := by
    by_contra hr'
    exact l.fold_ne_nil hr' hr
  exact ⟨q, g, by rw [hnil, List.append_nil], hg⟩

theorem exists_exeEnd (s : List Char) : ∃ body e, s = body ++ e ∧ ExeEnd l body e := by
  by_cases hexe : ".exe.exe".toList <:+ l.fold s
  · obtain ⟨body, e, rfl, he⟩ := exists_of_suffix l mem_exe_exe (by decide +kernel) hexe
    exact ⟨body, e, rfl, .inl he⟩
  · by_cases hone : ".exe".toList <:+ l.fold s
    · obtain ⟨body, e, rfl, he⟩ := exists_of_suffix l mem_exe (by decide +kernel) hone
      refine ⟨body, e, rfl, .inr ⟨.inl he, fun hbody => hexe ?_⟩⟩
      rw [exe_exe, l.fold_append, he, List.suffix_append_self_iff]
      exact hbody
    · exact ⟨s, [], (List.append_nil s).symm, .inr ⟨.inr rfl, hone⟩⟩

theorem host_text : Field.host.text = 'h' :: ['o', 's', 't', '='] := by
  decide +kernel

theorem find_host {q w r : List Char} (hq : ¬ Field.host.text <:+: l.fold q) (hw : l.fold w = Field.host.text) :
    findBytes Field.host.text (l.text (q ++ (w ++ r))) = some (utf8Len (l.fold q)) := by
  rw [l.findBytes_text fun d hd => Lowercase.plain_of_ascii (ascii_of_mem_text .host d hd), l.fold_append,
    l.fold_append, hw]
  rw [host_text] at hq ⊢
  exact findBytes_append (by decide) hq

/-- What stands before the first `host=`, and that it is there. -/
structure FirstHost (body q w r : List Char) : Prop where
  body_eq : body = q ++ (w ++ r)
  fold_eq : l.fold w = Field.host.text
  first : ¬ Field.host.text <:+: l.fold q

theorem getCustomServerFromString_of_host (fromConfig : List Char → Option CustomServer)
    {body q w r : List Char} (hend : ExeEnd l body e) (h : FirstHost l body q w r) :
    getCustomServerFromString l fromConfig (body ++ e) =
      match sliceFrom body (utf8Len (l.fold q)) with
      | none => .panic
      | some stripped => .ok ((stripped.splitOn ',').foldl (readElement l) {}) := by
  have hfind : findBytes Field.host.text (l.text body) = some (utf8Len (l.fold q)) := by
    rw [h.body_eq, find_host l h.first h.fold_eq]
  rw [getCustomServerFromString, stripExe_append l hend]
  simp only [hfind]

theorem getCustomServerFromString_of_cut (fromConfig : List Char → Option CustomServer)
    {body q w r stripped : List Char} (hend : ExeEnd l body e) (h : FirstHost l body q w r)
    (hcut : sliceFrom body (utf8Len (l.fold q)) = some stripped) :
    getCustomServerFromString l fromConfig (body ++ e) =
      .ok ((stripped.splitOn ',').foldl (readElement l) {}) := by
  rw [getCustomServerFromString_of_host l fromConfig hend h, hcut]

theorem exists_firstHost {body : List Char} {n : Nat} (h : findBytes Field.host.text (l.text body) = some n) :
    ∃ q w r, FirstHost l body q w r := by
  rw [l.findBytes_text fun d hd => Lowercase.plain_of_ascii (ascii_of_mem_text .host d hd)] at h
  have hne : Field.host.text ≠ [] := by
    rw [host_text]
    exact List.cons_ne_nil _ _
  have halone : ∀ d ∈ Field.host.text, l.Alone d := fun d hd =>
    l.alone_of_ascii (ascii_of_mem_text .host d hd) fun hi => absurd (hi ▸ hd) (by decide +kernel)
  obtain ⟨x, y, hxy, -, hx⟩ := exists_of_findBytes hne h
  obtain ⟨q, w, r, rfl, hq, hw, -⟩ := l.split_fold halone hne hxy
  exact ⟨q, w, r, rfl, hw, hq ▸ hx⟩

theorem ne_panic_iff (fromConfig : List Char → Option CustomServer) {body : List Char} (hend : ExeEnd l body e) :
    getCustomServerFromString l fromConfig (body ++ e) ≠ .panic ↔
      ∀ q w r, FirstHost l body q w r → IsBoundary body (utf8Len (l.fold q)) := by
  constructor
  · intro hok q w r hfirst
    rw [isBoundary_iff]
    intro hnone
    rw [getCustomServerFromString_of_host l fromConfig hend hfirst, hnone] at hok
    exact hok rfl
  · intro hbound hpanic
    cases hfind : findBytes Field.host.text (l.text body) with
    | some n =>
      obtain ⟨q, w, r, hfirst⟩ := exists_firstHost l hfind
      obtain ⟨stripped, hs⟩ := Option.ne_none_iff_exists'.mp (isBoundary_iff.mp (hbound q w r hfirst))
      rw [getCustomServerFromString_of_host l fromConfig hend hfirst, hs] at hpanic
      cases hpanic
    | none =>
      rw [getCustomServerFromString, stripExe_append l hend] at hpanic
      simp only [hfind] at hpanic
      cases hread : readLicence fromConfig body with
      | none =>
        rw [hread] at hpanic
        cases hpanic
      | some lic =>
        rw [hread] at hpanic
        cases hpanic

/-! ### Names that carry settings -/

structure Setting where
  field : Field
  /-- The name of the field as it is written, with the sign behind it. -/
  written : List Char
  value : List Char

def Setting.element (x : Setting) : List Char := x.written ++ x.value

/-- The settings of a name, in whatever letter case: a host and then other fields, each at most once. -/
structure Settings where
  written : List Char
  host : List Char
  others : List Setting
  written_eq : l.fold written = Field.host.text
  comma_host : ',' ∉ host
  others_eq : ∀ x ∈ others, x.field ≠ .host ∧ l.fold x.written = x.field.text ∧ ',' ∉ x.value
  nodup : (others.map Setting.field).Nodup

namespace Settings

variable {l}

def valueOf (name : Settings l) (f : Field) : List Char :=
  ((name.others.find? (·.field = f)).map Setting.value).getD []

/-- What is meant: the host and the values, empty where there are none. -/
def server (name : Settings l) : CustomServer where
  host := name.host
  key := name.valueOf .key
  api := name.valueOf .api
  relay := name.valueOf .relay

def text (name : Settings l) (tail : Option (List Char)) : List Char :=
  name.written ++ (name.host ++ (name.others.map Setting.element ++ tail.toList).flatMap (',' :: ·))

def elements (name : Settings l) (tail : Option (List Char)) : List (List Char) :=
  (name.written ++ name.host) :: (name.others.map Setting.element ++ tail.toList)

end Settings

/-- The text behind the last comma is none of the other fields. -/
def IsTail (tail : Option (List Char)) : Prop := ∀ u ∈ tail, ',' ∉ u ∧ ∀ f, f ≠ .host → named l f u = false

theorem head_text_inj (h : f.text.head? = g.text.head?) : f = g := by
  revert h
  cases f <;> cases g <;> decide +kernel

theorem text_ne_nil (f : Field) : f.text ≠ [] := by
  cases f <;> decide +kernel

theorem named_of_fold {w : List Char} (h : l.fold w = f.text) (v : List Char) (g : Field) :
    named l g (w ++ v) = decide (g = f) := by
  rw [named, l.fold_append, h, Bool.eq_iff_iff, List.isPrefixOf_iff_prefix, decide_eq_true_eq]
  constructor
  · rintro ⟨y, hy⟩
    have hhead := congrArg List.head? hy
    rw [List.head?_append_of_ne_nil _ (text_ne_nil g), List.head?_append_of_ne_nil _ (text_ne_nil f)] at hhead
    exact head_text_inj hhead
  · rintro rfl
    exact List.prefix_append _ _

theorem drop_of_fold {w : List Char} (h : l.fold w = f.text) (v : List Char) :
    (w ++ v).drop f.text.length = v := by
  have hlen : w.length = f.text.length := by
    rw [l.length_of_fold_ascii fun d hd => ascii_of_mem_text f d (h ▸ hd), h]
  rw [← hlen, List.drop_left]

theorem comma_of_fold {w : List Char} (h : l.fold w = f.text) : ',' ∉ w := by
  intro hmem
  obtain ⟨x, y, rfl⟩ := List.append_of_mem hmem
  have hcomma : ',' ∈ f.text := by
    rw [← h, l.fold_append, l.fold_cons, l.fold_ascii (by decide) (by decide)]
    exact List.mem_append_right _ (List.mem_append_left _ (by decide))
  revert hcomma
  cases f <;> decide +kernel

theorem lastNamed_others {xs : List Setting} (hxs : ∀ x ∈ xs, l.fold x.written = x.field.text)
    (hnodup : (xs.map Setting.field).Nodup) (f : Field) :
    lastNamed l f (xs.map Setting.element) = (xs.find? (·.field = f)).map Setting.element := by
  induction xs with
  | nil => rfl
  | cons x xs ih =>
    rw [List.map_cons, List.nodup_cons] at hnodup
    rw [List.map_cons, lastNamed_cons, ih (fun y hy => hxs y (List.mem_cons_of_mem x hy)) hnodup.2,
      Setting.element, named_of_fold l (hxs x List.mem_cons_self)]
    by_cases hf : x.field = f
    · have hnone : xs.find? (·.field = f) = none := by
        rw [List.find?_eq_none]
        intro y hy hyf
        rw [decide_eq_true_eq] at hyf
        exact hnodup.1 (List.mem_map.mpr ⟨y, hy, hyf.trans hf.symm⟩)
      rw [hnone, List.find?_cons_of_pos (by simpa using hf), if_pos (by simpa using hf.symm)]
      rfl
    · rw [List.find?_cons_of_neg (by simpa using hf), if_neg (by simpa using fun h => hf h.symm), Option.or_none]

theorem lastNamed_tail {tail : Option (List Char)} (h : ∀ u ∈ tail, named l f u = false) :
    lastNamed l f tail.toList = none :=
  lastNamed_eq_none l fun u hu => h u (Option.mem_toList.mp hu)

variable {l} in
theorem Settings.get_server_of_ne (name : Settings l) (hf : f ≠ .host) : name.server.get f = name.valueOf f := by
  cases f with
  | host => exact absurd rfl hf
  | key => rfl
  | api => rfl
  | relay => rfl

/-- Behind elements that name a field with nothing at it, the settings are read as they are meant. -/
theorem read_elements {before : List (List Char)} {tail : Option (List Char)} (name : Settings l)
    (hbefore : ∀ f el, lastNamed l f before = some el → el.length ≤ f.text.length)
    (htail : IsTail l tail) (hhost : ∀ u ∈ tail, named l .host u = false) :
    (before ++ name.elements tail).foldl (readElement l) {} = name.server := by
  have hothers := lastNamed_others l (fun x hx => (name.others_eq x hx).2.1) name.nodup
  apply CustomServer.ext_get
  intro f
  rw [get_readElements, lastNamed_append, Settings.elements, lastNamed_cons, lastNamed_append, hothers,
    named_of_fold l name.written_eq, CustomServer.get_empty]
  by_cases hf : f = .host
  · subst hf
    have hnone : name.others.find? (·.field = .host) = none := by
      rw [List.find?_eq_none]
      intro x hx h
      exact (name.others_eq x hx).1 (by simpa using h)
    rw [lastNamed_tail l hhost, hnone]
    exact drop_of_fold l name.written_eq name.host
  · rw [lastNamed_tail l fun u hu => (htail u hu).2 f hf, name.get_server_of_ne hf, Settings.valueOf,
      if_neg (by simpa using hf)]
    cases hfind : name.others.find? (·.field = f) with
    | some x =>
      have hfield : x.field = f := by simpa using List.find?_some hfind
      have hx := (name.others_eq x (List.mem_of_find?_eq_some hfind)).2.1
      rw [hfield] at hx
      exact drop_of_fold l hx x.value
    | none =>
      cases hlast : lastNamed l f before with
      | none => rfl
      | some el =>
        have hnil : el.drop f.text.length = [] := List.drop_eq_nil_of_le (hbefore f el hlast)
        simpa using hnil

/-! ### Where the place in lower case is the place in the name -/

/-- In lower case the text before the host takes the bytes of a beginning of it, and what is left of it is
nothing, or it ends with a comma and no field is named last in it with something behind its name. -/
def KeepsPlace (p : List Char) : Prop :=
  ∃ a t, p = a ++ t ∧ utf8Len a = utf8Len (l.fold p) ∧
    (t = [] ∨ ∃ t', t = t' ++ [','] ∧
      ∀ f el, lastNamed l f (t'.splitOn ',') = some el → el.length ≤ f.text.length)

variable {tail : Option (List Char)}

variable {l} in
theorem Settings.comma_elements (name : Settings l) (htail : IsTail l tail) :
    ∀ el ∈ name.others.map Setting.element ++ tail.toList, ',' ∉ el := by
  intro el hel hcomma
  rcases List.mem_append.mp hel with hel | hel
  · obtain ⟨x, hx, rfl⟩ := List.mem_map.mp hel
    obtain ⟨-, hwritten, hvalue⟩ := name.others_eq x hx
    rcases List.mem_append.mp hcomma with h | h
    · exact comma_of_fold l hwritten h
    · exact hvalue h
  · exact (htail el (Option.mem_toList.mp hel)).1 hcomma

variable {l} in
theorem Settings.splitOn_text (name : Settings l) (htail : IsTail l tail) {y : List Char} (hy : ',' ∉ y) :
    (y ++ name.text tail).splitOn ',' =
      (y ++ (name.written ++ name.host)) :: (name.others.map Setting.element ++ tail.toList) := by
  have hfirst : ',' ∉ y ++ (name.written ++ name.host) := by
    intro h
    rcases List.mem_append.mp h with h | h
    · exact hy h
    · rcases List.mem_append.mp h with h | h
      · exact comma_of_fold l name.written_eq h
      · exact name.comma_host h
  rw [Settings.text, ← List.append_assoc name.written, ← List.append_assoc y]
  exact SplitText.splitOn_flatMap hfirst (name.comma_elements htail)

variable {l} in
theorem Settings.firstHost (name : Settings l) (hp : ¬ Field.host.text <:+: l.fold p) (tail : Option (List Char)) :
    FirstHost l (p ++ name.text tail) p name.written
      (name.host ++ (name.others.map Setting.element ++ tail.toList).flatMap (',' :: ·)) :=
  ⟨rfl, name.written_eq, hp⟩

theorem read_of_keepsPlace (fromConfig : List Char → Option CustomServer) (hp : ¬ Field.host.text <:+: l.fold p)
    (htail : IsTail l tail) (hhost : ∀ u ∈ tail, named l .host u = false) (hkeeps : KeepsPlace l p)
    (name : Settings l) (hend : ExeEnd l (p ++ name.text tail) e) :
    getCustomServerFromString l fromConfig (p ++ name.text tail ++ e) = .ok name.server := by
  have hsplit := name.splitOn_text htail (y := []) List.not_mem_nil
  rw [List.nil_append, List.nil_append] at hsplit
  obtain ⟨a, t, rfl, hlen, rfl | ⟨t', rfl, hbefore⟩⟩ := hkeeps
  · have hcut : sliceFrom (a ++ [] ++ name.text tail) (utf8Len (l.fold (a ++ []))) = some (name.text tail) := by
      rw [← hlen, List.append_nil, sliceFrom_append]
    rw [getCustomServerFromString_of_cut l fromConfig hend (name.firstHost hp tail) hcut, hsplit]
    have hread : ([] ++ name.elements tail).foldl (readElement l) {} = name.server :=
      read_elements l name (fun f el h => by cases h) htail hhost
    exact congrArg Outcome.ok hread
  · have hcut : sliceFrom (a ++ (t' ++ [',']) ++ name.text tail) (utf8Len (l.fold (a ++ (t' ++ [',']))))
        = some (t' ++ ',' :: name.text tail) := by
      rw [← hlen, List.append_assoc, sliceFrom_append, List.append_assoc, List.singleton_append]
    rw [getCustomServerFromString_of_cut l fromConfig hend (name.firstHost hp tail) hcut,
      List.splitOn_append_cons_self, hsplit]
    exact congrArg Outcome.ok (read_elements l name hbefore htail hhost)

/-! A name whose host is longer than anything else tells where the name was cut. -/

theorem small_host : ∀ d ∈ Field.host.text, d.toNat < 0x80 ∧ d.toLower = d ∧ d ≠ ',' :=
  List.all_iff_forall_prop.mp (by decide +kernel)

def longName (n : Nat) : Settings l where
  written := Field.host.text
  host := List.replicate n 'x'
  others := []
  written_eq := l.fold_eq_self fun d hd => ⟨(small_host d hd).1, (small_host d hd).2.1⟩
  comma_host := fun h => absurd (List.eq_of_mem_replicate h) (by decide)
  others_eq := fun x hx => absurd hx List.not_mem_nil
  nodup := List.nodup_nil

theorem not_named_of_infix (hp : ¬ Field.host.text <:+: l.fold p) (h : s <:+: p) : named l .host s = false := by
  rw [Bool.eq_false_iff]
  intro hn
  exact hp ((List.isPrefixOf_iff_prefix.mp hn).isInfix.trans (l.fold_infix h))

theorem not_named_of_before (hp : ¬ Field.host.text <:+: l.fold p) (h : s <:+: p) (hs : s ≠ []) {w : List Char}
    (hw : l.fold w = Field.host.text) (v : List Char) : named l .host (s ++ (w ++ v)) = false := by
  have hinfix : ¬ Field.host.text <:+: l.fold s := fun hi => hp (hi.trans (l.fold_infix h))
  rw [Bool.eq_false_iff, named, l.fold_append, l.fold_append, hw]
  intro hn
  rw [host_text] at hinfix hn
  exact not_prefix_of_earlier (by decide) hinfix (l.fold_ne_nil hs) (List.isPrefixOf_iff_prefix.mp hn)

theorem length_host_le {before : List (List Char)} (hbefore : ∀ el ∈ before, named l .host el = false) :
    ((before ++ tail.toList).foldl (readElement l) {}).host.length ≤ (tail.getD []).length := by
  have hget := get_readElements l (before ++ tail.toList) {} .host
  rw [lastNamed_append, lastNamed_eq_none l hbefore, Option.or_none, CustomServer.get_empty] at hget
  have hhost : ((before ++ tail.toList).foldl (readElement l) {}).host =
      ((lastNamed l .host tail.toList).map (·.drop Field.host.text.length)).getD [] := hget
  rw [hhost]
  cases tail with
  | none => exact Nat.le_refl 0
  | some u =>
    rw [Option.toList_some, lastNamed_cons]
    by_cases hn : named l .host u = true
    · rw [if_pos hn]
      exact (List.drop_suffix _ u).length_le
    · rw [if_neg hn]
      exact Nat.zero_le _

theorem lt_length_of_read {before : List (List Char)} {n : Nat} (hn : (tail.getD []).length < n)
    (h : (before ++ tail.toList).foldl (readElement l) {} = (longName l n).server) :
    ∃ el ∈ before, named l .host el = true := by
  by_contra hno
  have hle : ((before ++ tail.toList).foldl (readElement l) {}).host.length ≤ (tail.getD []).length := by
    apply length_host_le
    intro el hel
    by_contra hel'
    exact hno ⟨el, hel, by simpa using hel'⟩
  have hhost : (longName l n).server.host.length = n := List.length_replicate
  rw [h, hhost] at hle
  omega

theorem not_cut_behind {n : Nat} {z c : List Char} (htail : IsTail l tail) (hz : z ≠ []) (hzn : z.length < n)
    (hn : (tail.getD []).length < n) (hcut : (longName l n).text tail = z ++ c) :
    (c.splitOn ',').foldl (readElement l) {} ≠ (longName l n).server := by
  intro hread
  have htext : (longName l n).text tail =
      (Field.host.text ++ List.replicate n 'x') ++ tail.toList.flatMap (',' :: ·) := by
    rw [Settings.text, ← List.append_assoc]
    rfl
  rw [htext] at hcut
  have hlong : z.length ≤ (Field.host.text ++ List.replicate n 'x').length := by
    rw [List.length_append, List.length_replicate]
    omega
  obtain ⟨c₀, hc₀⟩ : z <+: Field.host.text ++ List.replicate n 'x' :=
    List.prefix_of_prefix_length_le ⟨c, hcut.symm⟩ (List.prefix_append _ _) hlong
  have hc : c = c₀ ++ tail.toList.flatMap (',' :: ·) := by
    rw [← hc₀, List.append_assoc] at hcut
    exact (List.append_cancel_left hcut).symm
  have hsmall : ∀ d ∈ Field.host.text ++ List.replicate n 'x', d.toNat < 0x80 ∧ d.toLower = d ∧ d ≠ ',' := by
    intro d hd
    rcases List.mem_append.mp hd with hd | hd
    · exact small_host d hd
    · rw [List.eq_of_mem_replicate hd]
      decide
  have hmem : ∀ d ∈ c₀, d ∈ Field.host.text ++ List.replicate n 'x' := fun d hd =>
    hc₀ ▸ List.mem_append_right z hd
  have hcomma : ',' ∉ c₀ := fun h => (hsmall ',' (hmem _ h)).2.2 rfl
  rw [hc, SplitText.splitOn_flatMap hcomma fun u hu => (htail u (Option.mem_toList.mp hu)).1,
    ← List.singleton_append] at hread
  obtain ⟨el, hel, hnamed⟩ := lt_length_of_read l hn hread
  rw [List.mem_singleton.mp hel, named, l.fold_eq_self fun d hd =>
    ⟨(hsmall d (hmem d hd)).1, (hsmall d (hmem d hd)).2.1⟩, List.isPrefixOf_iff_prefix, host_text] at hnamed
  -- The only `h` has been cut off.
  have hh : 'h' ∈ c₀ := hnamed.subset List.mem_cons_self
  cases z with
  | nil => exact hz rfl
  | cons d z =>
    rw [host_text, List.cons_append, List.cons_append, List.cons.injEq] at hc₀
    have hrest : 'h' ∈ ['o', 's', 't', '='] ++ List.replicate n 'x' := by
      rw [← hc₀.2]
      exact List.mem_append_right z hh
    rcases List.mem_append.mp hrest with h | h
    · exact absurd h (by decide)
    · exact absurd (List.eq_of_mem_replicate h) (by decide)

/-- The elements of a name that is cut within the text before the host: what is left of that text behind its last
comma stands before the host. -/
theorem splitOn_cut {n : Nat} {z : List Char} (htail : IsTail l tail) (hz : z <:+: p) :
    ∃ (y : List Char) (before : List (List Char)), y <:+: p ∧ (∀ el ∈ before, el <:+: p) ∧
      (z ++ (longName l n).text tail).splitOn ',' =
        before ++ ((y ++ (Field.host.text ++ List.replicate n 'x')) :: tail.toList) ∧
      (z = y ∧ before = [] ∨ ∃ t, z = t ++ ',' :: y ∧ before = t.splitOn ',') := by
  obtain ⟨y, hy, hzy⟩ := SplitText.exists_last ',' z
  have hlast := (longName l n).splitOn_text htail hy
  rcases hzy with rfl | ⟨t, rfl⟩
  · exact ⟨z, [], hz, fun el hel => absurd hel List.not_mem_nil, hlast, .inl ⟨rfl, rfl⟩⟩
  · have hsuffix : y <:+: t ++ ',' :: y := (List.suffix_cons ',' y).isInfix.trans (List.suffix_append t _).isInfix
    refine ⟨y, t.splitOn ',', hsuffix.trans hz, fun el hel => ?_, ?_, .inr ⟨t, rfl, rfl⟩⟩
    · exact ((SplitText.infix_of_mem_splitOn hel).trans (List.prefix_append t _).isInfix).trans hz
    · rw [List.append_assoc, List.cons_append, List.splitOn_append_cons_self, hlast]
      rfl

theorem tail_not_host {n : Nat} {els : List (List Char)} (hn : (tail.getD []).length < n)
    (hread : (els ++ tail.toList).foldl (readElement l) {} = (longName l n).server) :
    ∀ u ∈ tail, named l .host u = false := by
  intro u hu
  rw [Option.mem_def] at hu
  subst hu
  by_contra hnamed
  rw [Bool.not_eq_false] at hnamed
  have hget := congrArg (fun server : CustomServer => (server.get .host).length) hread
  simp only [get_readElements] at hget
  rw [lastNamed_append, Option.toList_some, lastNamed_cons, if_pos hnamed] at hget
  have hdrop : (u.drop Field.host.text.length).length = n := hget.trans List.length_replicate
  have hle := (List.drop_suffix Field.host.text.length u).length_le
  rw [Option.getD_some] at hn
  omega

theorem empty_before {n : Nat} {before : List (List Char)} {el : List Char} (hf : f ≠ .host) (htail : IsTail l tail)
    (hread : (before ++ (Field.host.text ++ List.replicate n 'x') :: tail.toList).foldl (readElement l) {} =
      (longName l n).server) (hlast : lastNamed l f before = some el) : el.length ≤ f.text.length := by
  have hget := congrArg (fun server : CustomServer => server.get f) hread
  simp only [get_readElements] at hget
  have hno : ¬ named l f (Field.host.text ++ List.replicate n 'x') = true := by
    have h := named_of_fold l (longName l n).written_eq (List.replicate n 'x') f
    exact fun hnamed => hf (by simpa using h.symm.trans hnamed)
  rw [lastNamed_append, lastNamed_cons, lastNamed_tail l fun u hu => (htail u hu).2 f hf, if_neg hno, hlast,
    (longName l n).get_server_of_ne hf] at hget
  exact List.drop_eq_nil_iff.mp hget

/-- A name whose long host is read shows that nothing of it was cut off, and what was left before it. -/
theorem keepsPlace_of_read {n : Nat} {z : List Char} (hp : ¬ Field.host.text <:+: l.fold p) (htail : IsTail l tail)
    (hn : (tail.getD []).length < n) (hz : z <:+: p)
    (hread : ((z ++ (longName l n).text tail).splitOn ',').foldl (readElement l) {} = (longName l n).server) :
    (∀ u ∈ tail, named l .host u = false) ∧
      (z = [] ∨ ∃ t', z = t' ++ [','] ∧
        ∀ f el, lastNamed l f (t'.splitOn ',') = some el → el.length ≤ f.text.length) := by
  obtain ⟨y, before, hyp, hbefore, hsplit, hform⟩ := splitOn_cut l (n := n) htail hz
  rw [hsplit] at hread
  have hread' := hread
  rw [List.append_cons] at hread'
  have hnil : y = [] := by
    by_contra hne
    obtain ⟨el, hel, hnamed⟩ := lt_length_of_read l hn hread'
    have hno : named l .host el = false := by
      rcases List.mem_append.mp hel with hel | hel
      · exact not_named_of_infix l hp (hbefore el hel)
      · rw [List.mem_singleton.mp hel]
        exact not_named_of_before l hp hyp hne (longName l n).written_eq _
    exact absurd hnamed (by rw [hno]; decide)
  subst hnil
  refine ⟨tail_not_host l hn hread', ?_⟩
  rcases hform with ⟨hz, -⟩ | ⟨t, rfl, rfl⟩
  · exact .inl hz
  · refine .inr ⟨t, rfl, fun f el hlast => ?_⟩
    by_cases hf : f = .host
    · subst hf
      rw [lastNamed_eq_none l fun el hel => not_named_of_infix l hp (hbefore el hel)] at hlast
      cases hlast
    · exact empty_before l hf htail hread hlast

theorem keepsPlace_of_all (fromConfig : List Char → Option CustomServer) (hp : ¬ Field.host.text <:+: l.fold p)
    (htail : IsTail l tail)
    (hall : ∀ (name : Settings l) (e : List Char), ExeEnd l (p ++ name.text tail) e →
      getCustomServerFromString l fromConfig (p ++ name.text tail ++ e) = .ok name.server) :
    (∀ u ∈ tail, named l .host u = false) ∧ KeepsPlace l p := by
  obtain ⟨n, hn⟩ : ∃ n, n = utf8Len (l.fold p) + (tail.getD []).length + 1 := ⟨_, rfl⟩
  have hend : ExeEnd l (p ++ (longName l n).text tail) ".exe.exe".toList :=
    .inl (l.fold_eq_self (List.all_iff_forall_prop.mp (by decide +kernel)))
  have hread := hall (longName l n) _ hend
  rw [getCustomServerFromString_of_host l fromConfig hend ((longName l n).firstHost hp tail)] at hread
  cases hcut : sliceFrom (p ++ (longName l n).text tail) (utf8Len (l.fold p)) with
  | none =>
    rw [hcut] at hread
    cases hread
  | some c =>
    rw [hcut] at hread
    have hserver : (c.splitOn ',').foldl (readElement l) {} = (longName l n).server := Outcome.ok.inj hread
    obtain ⟨a, hac, hlen⟩ := exists_of_sliceFrom hcut
    rcases List.append_eq_append_iff.mp hac with ⟨z, rfl, hz⟩ | ⟨z, rfl, rfl⟩
    · have hnil : z = [] := by
        by_contra hne
        have hzlen := length_le_utf8Len z
        rw [utf8Len_append] at hlen
        exact not_cut_behind l htail hne (by omega) (by omega) hz hserver
      subst hnil
      rw [List.nil_append] at hz
      rw [← hz] at hserver
      obtain ⟨hhost, -⟩ := keepsPlace_of_read l (z := []) hp htail (by omega) (List.nil_infix) hserver
      rw [List.append_nil] at hlen
      exact ⟨hhost, p, [], (List.append_nil p).symm, hlen, .inl rfl⟩
    · obtain ⟨hhost, hz⟩ :=
        keepsPlace_of_read l hp htail (by omega) (List.suffix_append a z).isInfix hserver
      exact ⟨hhost, a, z, rfl, hlen, hz⟩

/-- The settings of every name behind a text are read as they are meant if and only if that text keeps its
place in lower case, and no second host follows; and a name makes it panic if and only if the place of its
first `host=` in lower case is within a character of the name. -/
theorem customServerName_iff (fromConfig : List Char → Option CustomServer) :
    (∀ (p : List Char) (tail : Option (List Char)), ¬ Field.host.text <:+: l.fold p → IsTail l tail →
      ((∀ (name : Settings l) (e : List Char), ExeEnd l (p ++ name.text tail) e →
        getCustomServerFromString l fromConfig (p ++ name.text tail ++ e) = .ok name.server) ↔
        (∀ u ∈ tail, named l .host u = false) ∧ KeepsPlace l p)) ∧
    ∀ s : List Char, ∃ body e, s = body ++ e ∧ ExeEnd l body e ∧
      (getCustomServerFromString l fromConfig s ≠ .panic ↔
        ∀ q w r, FirstHost l body q w r → IsBoundary body (utf8Len (l.fold q))) := by
  constructor
  · intro p tail hp htail
    constructor
    · exact keepsPlace_of_all l fromConfig hp htail
    · intro h name e hend
      exact read_of_keepsPlace l fromConfig hp htail h.1 h.2 name hend
  · intro s
    obtain ⟨body, e, rfl, hend⟩ := exists_exeEnd l s
    exact ⟨body, e, rfl, hend, ne_panic_iff l fromConfig hend⟩

/-! A lower case with the two letters that have one of ASCII in theirs. -/

def lowerChar (c : Char) : List Char :=
  if c.toNat < 0x80 then [c.toLower]
  else if c = 'İ' then ['i', '\u0307']
  else if c = '\u212A' then ['k']
  else [c]

def someLetters : Lowercase where
  char := lowerChar
  text s := s.flatMap lowerChar
  char_ne_nil c := by
    rw [lowerChar]
    split_ifs <;> simp
  char_ascii c hc := by rw [lowerChar, if_pos hc]
  char_foreign c hc d hd hascii := by
    rw [lowerChar, if_neg (Nat.not_lt.mpr hc)] at hd ⊢
    split_ifs at hd ⊢ with hi hk
    · exact .inl rfl
    · exact .inr rfl
    · rw [List.mem_singleton.mp hd] at hascii
      exact absurd hc (Nat.not_le.mpr hascii)
  text_eq _ := rfl

theorem customServerName_plain :
    (∀ (name : Settings someLetters) (e : List Char),
      ExeEnd someLetters ("rustdesk-".toList ++ name.text none) e →
        getCustomServerFromString someLetters (fun _ => none) ("rustdesk-".toList ++ name.text none ++ e) =
          .ok name.server) ∧
      KeepsPlace someLetters "rustdesk-".toList := by
  have hkeeps : KeepsPlace someLetters "rustdesk-".toList :=
    ⟨"rustdesk-".toList, [], by decide +kernel, by decide +kernel, .inl rfl⟩
  have htail : IsTail someLetters none := fun u hu => absurd hu (Option.not_mem_none u)
  have hp : ¬ Field.host.text <:+: someLetters.fold "rustdesk-".toList := by decide +kernel
  have hiff := (customServerName_iff someLetters fun _ => none).1 _ none hp htail
  exact ⟨hiff.mpr ⟨fun u hu => absurd hu (Option.not_mem_none u), hkeeps⟩, hkeeps⟩

def hostOnly : Settings someLetters where
  written := "host=".toList
  host := "a".toList
  others := []
  written_eq := by decide +kernel
  comma_host := by decide +kernel
  others_eq x hx := absurd hx List.not_mem_nil
  nodup := List.nodup_nil

/-- A letter that grows in lower case loses the host; enough of them, and the cut is within a letter. -/
theorem customServerName_lost :
    ¬ Field.host.text <:+: someLetters.fold "İ".toList ∧
      getCustomServerFromString someLetters (fun _ => none) ("İ".toList ++ hostOnly.text none) = .ok {} ∧
      hostOnly.server ≠ {} ∧
      getCustomServerFromString someLetters (fun _ => none) "İİİİİİhost=é".toList = .panic := by
  decide +kernel

end RustDesk.CustomServerName
