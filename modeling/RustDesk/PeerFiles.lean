import RustDesk.PeerNames
import Mathlib.Data.List.Perm.Basic
import Mathlib.Data.List.MinMax

/-!
# The configurations of peers

`store` writes the configuration of a peer to the file of its id. `peers` goes through the
files of the directory, takes an id from each name and loads that id; a file whose id loads
nothing is deleted. The map of peers survives exactly when each id finds its own file again.
-/

namespace RustDesk

open UnixPath SplitText

namespace PeerConfig

/-- `Config::with_extension` -/
def withToml (p : List Char) : List Char :=
  match extension p with
  | some ext => withExtension p (ext ++ ['.', 't', 'o', 'm', 'l'])
  | none => withExtension p ['t', 'o', 'm', 'l']

def peersName : List Char := ['p', 'e', 'e', 'r', 's']

/-- `PeerConfig::path`, in the directory of the configuration. -/
def path (base id : List Char) : List Char :=
  withToml (push base (push peersName (idEncoded id)))

/-- How a configuration goes to its file, and which files the file system lets one write. -/
structure Store (γ τ : Type) where
  base : List Char
  accepts : List Component → Bool
  encode : γ → τ
  decode : τ → Option γ
  platform : γ → String
  default : γ
  platform_default : platform default = ""

/-- The files below the directory of the configuration, by where they are. -/
abbrev Files (τ : Type) := List (List Component × τ)

variable {γ τ : Type}

namespace Store

def place (st : Store γ τ) (id : List Char) : List Component := lexical (path st.base id)

def peersPlace (st : Store γ τ) : List Component := lexical (push st.base peersName)

def load (st : Store γ τ) (files : Files τ) (id : List Char) : γ :=
  match files.lookup (st.place id) with
  | some t => (st.decode t).getD st.default
  | none => st.default

def store (st : Store γ τ) (files : Files τ) (e : List Char × γ) : Files τ :=
  if st.accepts (st.place e.1) then
    (st.place e.1, st.encode e.2) :: files.filter fun f => f.1 ≠ st.place e.1
  else files

/-- The name of a file that is in the directory of the peers itself. -/
def entryName (st : Store γ τ) (p : List Component) : Option (List Char) :=
  match p.getLast? with
  | some (.normal name) => if p.dropLast = st.peersPlace then some name else none
  | _ => none

/-- `get_vec_id_modified_time_path(&None)`, before it is sorted by time. -/
def vecIdPath (st : Store γ τ) (files : Files τ) : List (List Char × List Component) :=
  files.filterMap fun f =>
    match (st.entryName f.1).bind splitAtDot with
    | some (stem, ext) => if ext = ['t', 'o', 'm', 'l'] then some (idDecoded stem, f.1) else none
    | none => none

/-- `batch_peers` over all of them: the files that are left, and the peers. -/
def batchPeers (st : Store γ τ) : List (List Char × List Component) → Files τ →
    Files τ × List (List Char × γ)
  | [], files => (files, [])
  | (id, p) :: all, files =>
    let c := st.load files id
    if st.platform c = "" then st.batchPeers all (files.filter fun f => f.1 ≠ p)
    else
      let r := st.batchPeers all files
      (r.1, (id, c) :: r.2)

end Store

/-- A finite map from ids to configurations with a platform. -/
structure PeerMap (st : Store γ τ) where
  entries : List (List Char × γ)
  nodup : (entries.map Prod.fst).Nodup
  platform : ∀ e ∈ entries, st.platform e.2 ≠ ""

variable {st : Store γ τ}

def PeerMap.files (m : PeerMap st) : Files τ := m.entries.foldl st.store []

/-- After storing the map it is listed as it is, whatever the order of the files is. -/
structure PeerMap.Survives (m : PeerMap st) : Prop where
  listed : ∀ vec, vec.Perm (st.vecIdPath m.files) → (st.batchPeers vec m.files).2.Perm m.entries
  undeleted : ∀ vec, vec.Perm (st.vecIdPath m.files) → (st.batchPeers vec m.files).1 = m.files
  inside : ∀ e ∈ m.entries, ∃ name, st.place e.1 = st.peersPlace ++ [.normal name]
  distinct : ∀ e ∈ m.entries, ∀ e' ∈ m.entries, st.place e.1 = st.place e'.1 → e.1 = e'.1

/-- An id that is a file name as it is or in base64, and a file that can be read back. -/
structure Storable (st : Store γ τ) (e : List Char × γ) : Prop where
  named : e.1 ≠ [] ∧ e.1 ≠ ['.'] ∧ e.1 ≠ ['.', '.']
  noSlash : isForbidden e.1 = true → '/' ∉ base64Text e.1
  noPrefix : isForbidden e.1 = false → base64Prefix <+: e.1 → e.1 = base64Prefix
  accepted : st.accepts (st.place e.1) = true
  readable : st.decode (st.encode e.2) = some e.2

/-! ### Where the file of an id is -/

theorem lexical_withToml {p seg : List Char} {init : List Component}
    (h : lexical p = init ++ [Component.normal seg]) :
    lexical (withToml p) = init ++ [Component.normal (seg ++ ['.', 't', 'o', 'm', 'l'])] := by
  have hname : fileName p = some seg := by simp [fileName, h]
  have hsep := notMem_fileName hname
  have hnew : ∀ name : List Char, name = seg ++ ['.', 't', 'o', 'm', 'l'] →
      lexical (withFileName p name) = init ++ [Component.normal (seg ++ ['.', 't', 'o', 'm', 'l'])] := by
    rintro name rfl
    exact lexical_withFileName h (by simp [hsep]) (by simp)
  unfold withToml withExtension extension fileStem
  rw [hname]
  cases hsplit : splitAtDot seg with
  | none =>
    simp only [Option.bind_some, Option.map_none, Option.map_some, Option.getD_none, hsplit]
    exact hnew _ (by simp)
  | some parts =>
    obtain ⟨stem, ext⟩ := parts
    have hdot : '.' ∈ seg := by
      by_contra hno
      rw [splitAtDot_of_notMem hno] at hsplit
      cases hsplit
    obtain ⟨stem', ext', rfl, hext⟩ := exists_last_dot hdot
    rw [splitAtDot_append hext] at hsplit
    split_ifs at hsplit with hstem
    cases hsplit
    simp only [Option.bind_some, Option.map_some, Option.getD_some, splitAtDot_append hext,
      if_pos hstem]
    exact hnew _ (by simp)

theorem lexical_push_peers (base : List Char) {enc : List Char} (h : isAbsolute enc = false) :
    lexical (push base (push peersName enc)) =
      lexical (push base peersName) ++ (enc.splitOn '/').filterMap UnixPath.segment := by
  have habs : isAbsolute (push peersName enc) = false := by
    rw [push, h]
    rfl
  rw [lexical_push base habs, lexical_push base (by decide), lexical_push peersName h,
    lexical_relative h, List.append_assoc]

theorem isAbsolute_idEncoded (id : List Char) : isAbsolute (idEncoded id) = false := by
  unfold idEncoded
  split_ifs with h
  · rfl
  · rcases id with _ | ⟨c, id⟩
    · rfl
    · have hc : c ≠ '/' := by
        rintro rfl
        exact h (by simp [isForbidden, forbidden])
      simp [isAbsolute, hc]

theorem length_lexical_withToml (p : List Char) :
    (lexical (withToml p)).length = (lexical p).length := by
  cases h : fileName p with
  | none =>
    have hp : withToml p = p := by simp [withToml, extension, withExtension, fileStem, h]
    rw [hp]
  | some seg =>
    obtain ⟨init, hinit⟩ : ∃ init, lexical p = init ++ [Component.normal seg] := by
      unfold fileName at h
      split at h
      · next s hlast =>
        cases h
        exact List.getLast?_eq_some_iff.mp hlast
      · cases h
    rw [lexical_withToml hinit, hinit]
    simp

theorem length_place (st : Store γ τ) (id : List Char) : (st.place id).length =
    st.peersPlace.length + ((idEncoded id).splitOn '/' |>.filterMap UnixPath.segment).length := by
  unfold Store.place Store.peersPlace path
  rw [length_lexical_withToml, lexical_push_peers _ (isAbsolute_idEncoded id), List.length_append]

theorem place_eq (st : Store γ τ) {id stem : List Char}
    (h : ((idEncoded id).splitOn '/').filterMap UnixPath.segment = [.normal stem]) :
    st.place id = st.peersPlace ++ [Component.normal (stem ++ ['.', 't', 'o', 'm', 'l'])] := by
  unfold Store.place Store.peersPlace path
  apply lexical_withToml
  rw [lexical_push_peers _ (isAbsolute_idEncoded id), h]

theorem segment_eq {seg : List Char} (h : seg ≠ [] ∧ seg ≠ ['.'] ∧ seg ≠ ['.', '.']) :
    UnixPath.segment seg = some (.normal seg) := by
  rw [UnixPath.segment, if_neg (by simp [h.1, h.2.1]), if_neg h.2.2]

theorem place_idEncoded (st : Store γ τ) {id : List Char} (hsep : '/' ∉ idEncoded id)
    (hid : id ≠ [] ∧ id ≠ ['.'] ∧ id ≠ ['.', '.']) :
    st.place id = st.peersPlace ++ [Component.normal (idEncoded id ++ ['.', 't', 'o', 'm', 'l'])] := by
  have hseg : UnixPath.segment (idEncoded id) = some (.normal (idEncoded id)) := by
    unfold idEncoded
    split_ifs
    · exact segment_of_long (by simp [base64Prefix])
    · exact segment_eq hid
  apply place_eq
  rw [List.splitOn_eq_singleton hsep]
  simp [hseg]

theorem filterMap_segment_ne_nil {y : List Char} {c : Char} (hc : c ∈ y) (hsep : c ≠ '/')
    (hdot : '.' ∉ y) : (y.splitOn '/').filterMap UnixPath.segment ≠ [] := by
  intro hnil
  rw [List.filterMap_eq_nil_iff] at hnil
  have hmem : c ∈ ['/'].intercalate (y.splitOn '/') := by rwa [List.intercalate_splitOn]
  rcases mem_intercalate hmem with h | ⟨seg, hseg, hcs⟩
  · exact hsep h
  · have hnone := hnil seg hseg
    unfold UnixPath.segment at hnone
    split_ifs at hnone with h
    rcases h with rfl | rfl
    · exact List.not_mem_nil hcs
    · exact hdot (mem_of_mem_splitOn hseg List.mem_cons_self)

/-- Behind a slash in a name in base64 comes another character, unless it is the last one. -/
theorem exists_ne_slash {id x y : List Char} (h : base64Text id = x ++ '/' :: y) (hy : y ≠ []) :
    ∃ c ∈ y, c ≠ '/' := by
  by_contra hno
  have hall : ∀ c ∈ y, c = '/' := by
    intro c hc
    by_contra hne
    exact hno ⟨c, hc, hne⟩
  obtain ⟨n, hn⟩ : ∃ n, y.length = n + 1 := Nat.exists_eq_succ_of_ne_zero (by simpa using hy)
  have hrep : y = List.replicate (n + 1) '/' := List.eq_replicate_iff.mpr ⟨hn, hall⟩
  apply not_two_slashes id (x ++ List.replicate n '/')
  rw [h, hrep, ← List.replicate_succ, List.replicate_succ', List.replicate_succ']
  simp

theorem place_parent (st : Store γ τ) : st.place ['.', '.'] = st.peersPlace ++ [Component.parentDir] := by
  have hlex : lexical (push st.base (push peersName (idEncoded ['.', '.']))) =
      st.peersPlace ++ [Component.parentDir] := by
    rw [lexical_push_peers _ (by decide)]
    rfl
  have hname : fileName (push st.base (push peersName (idEncoded ['.', '.']))) = none := by
    simp [fileName, hlex]
  unfold Store.place path
  rw [show withToml (push st.base (push peersName (idEncoded ['.', '.']))) =
    push st.base (push peersName (idEncoded ['.', '.'])) by
      simp [withToml, extension, withExtension, fileStem, hname], hlex]

/-- The files directly in the directory: those named after their id, and those whose name has
lost the slash at its end. -/
theorem stem_of_inside {id : List Char}
    (h : ∃ name, st.place id = st.peersPlace ++ [Component.normal name]) :
    (id ≠ [] ∧ id ≠ ['.'] ∧ id ≠ ['.', '.']) ∧ ∃ stem, stem ≠ [] ∧
      st.place id = st.peersPlace ++ [Component.normal (stem ++ ['.', 't', 'o', 'm', 'l'])] ∧
      ((stem = idEncoded id ∧ (isForbidden id = true → '/' ∉ base64Text id)) ∨
        idDecoded stem = []) := by
  obtain ⟨name, hname⟩ := h
  have hone : ((idEncoded id).splitOn '/' |>.filterMap UnixPath.segment).length = 1 := by
    have hlen := length_place st id
    rw [hname, List.length_append, List.length_singleton] at hlen
    omega
  by_cases hf : isForbidden id = true
  · have hid : id ≠ [] ∧ id ≠ ['.'] ∧ id ≠ ['.', '.'] := by
      refine ⟨ne_nil_of_isForbidden hf, ?_, ?_⟩
      · rintro rfl
        exact absurd hf (by decide)
      · rintro rfl
        exact absurd hf (by decide)
    have henc : idEncoded id = base64Prefix ++ base64Text id := if_pos hf
    refine ⟨hid, ?_⟩
    by_cases hslash : '/' ∈ base64Text id
    · obtain ⟨x, y, hxy, hx⟩ := List.eq_append_cons_of_mem hslash
      have hpx : '/' ∉ base64Prefix ++ x := by
        rw [List.mem_append, not_or]
        exact ⟨by decide, hx⟩
      have hseg : UnixPath.segment (base64Prefix ++ x) = some (.normal (base64Prefix ++ x)) :=
        segment_of_long (by simp [base64Prefix])
      have hsplit : (idEncoded id).splitOn '/' = (base64Prefix ++ x) :: y.splitOn '/' := by
        rw [henc, hxy, ← List.append_assoc]
        exact List.splitOn_append_cons_self_of_not_mem hpx _
      rw [hsplit, List.filterMap_cons_some hseg, List.length_cons] at hone
      by_cases hy : y = []
      · subst hy
        refine ⟨base64Prefix ++ x, by simp [base64Prefix], place_eq st ?_, .inr (idDecoded_cut hxy)⟩
        rw [hsplit, List.filterMap_cons_some hseg]
        simp [UnixPath.segment]
      · obtain ⟨c, hc, hne⟩ := exists_ne_slash hxy hy
        have hdot : '.' ∉ y := fun hd => dot_notMem_base64Text id (by rw [hxy]; simp [hd])
        have := List.length_pos_of_ne_nil (filterMap_segment_ne_nil hc hne hdot)
        omega
    · have hsep : '/' ∉ idEncoded id := by
        rw [henc, List.mem_append, not_or]
        exact ⟨by decide, hslash⟩
      refine ⟨idEncoded id, ?_, place_idEncoded st hsep hid, .inl ⟨rfl, fun _ => hslash⟩⟩
      rw [henc]
      simp [base64Prefix]
  · have henc : idEncoded id = id := if_neg hf
    rw [henc] at hone
    have hid : id ≠ [] ∧ id ≠ ['.'] ∧ id ≠ ['.', '.'] := by
      refine ⟨?_, ?_, ?_⟩
      · rintro rfl
        exact absurd hone (by decide)
      · rintro rfl
        exact absurd hone (by decide)
      · rintro rfl
        rw [place_parent] at hname
        exact absurd (List.append_cancel_left hname) (by simp)
    have hsep : '/' ∉ idEncoded id := by
      rw [henc]
      intro hmem
      exact hf (List.any_eq_true.mpr ⟨'/', hmem, by decide⟩)
    exact ⟨hid, idEncoded id, by rw [henc]; exact hid.1, place_idEncoded st hsep hid,
      .inl ⟨rfl, fun h => absurd h hf⟩⟩

/-! ### The directory -/

/-- The file that an entry of the map is written to. -/
def fileOf (st : Store γ τ) (e : List Char × γ) : List Component × τ :=
  (st.place e.1, st.encode e.2)

/-- Entries with one file are one entry. -/
def Apart (st : Store γ τ) (es : List (List Char × γ)) : Prop :=
  es.Pairwise fun e e' => st.place e.1 ≠ st.place e'.1

theorem foldl_store (st : Store γ τ) (es : List (List Char × γ)) (h : Apart st es) :
    es.foldl st.store [] =
      (es.filter fun e => st.accepts (st.place e.1)).reverse.map (fileOf st) := by
  induction es using List.reverseRecOn with
  | nil => rfl
  | append_singleton es e ih =>
    obtain ⟨hes, -, hne⟩ := List.pairwise_append.mp h
    have hkeep : ((es.filter fun e => st.accepts (st.place e.1)).reverse.map (fileOf st)).filter
        (fun f => f.1 ≠ st.place e.1) =
          (es.filter fun e => st.accepts (st.place e.1)).reverse.map (fileOf st) := by
      rw [List.filter_eq_self]
      intro f hf
      obtain ⟨e', he', rfl⟩ := List.mem_map.mp hf
      have hmem := (List.mem_filter.mp (List.mem_reverse.mp he')).1
      exact decide_eq_true (hne e' hmem e (List.mem_singleton_self e))
    rw [List.foldl_append, List.foldl_cons, List.foldl_nil, ih hes, Store.store, hkeep,
      List.filter_append]
    split_ifs with hacc
    · simp [hacc, fileOf]
    · simp [hacc]

/-- The stem of the name of the file of an id. -/
def stemOf (st : Store γ τ) (id : List Char) : List Char :=
  (((st.entryName (st.place id)).bind splitAtDot).map Prod.fst).getD []

/-- The file is directly in the directory, under a name with the extension. -/
def Listed (st : Store γ τ) (id : List Char) : Prop :=
  stemOf st id ≠ [] ∧
    st.place id = st.peersPlace ++ [.normal (stemOf st id ++ ['.', 't', 'o', 'm', 'l'])]

theorem entryName_splitAtDot (st : Store γ τ) {stem : List Char} (h : stem ≠ []) :
    (st.entryName (st.peersPlace ++ [Component.normal (stem ++ ['.', 't', 'o', 'm', 'l'])])).bind splitAtDot =
      some (stem, ['t', 'o', 'm', 'l']) := by
  have hname : st.entryName (st.peersPlace ++ [Component.normal (stem ++ ['.', 't', 'o', 'm', 'l'])]) =
      some (stem ++ ['.', 't', 'o', 'm', 'l']) := by
    simp [Store.entryName]
  rw [hname, Option.bind_some, splitAtDot_append (by decide), if_pos h]

theorem stemOf_eq {id stem : List Char} (hne : stem ≠ [])
    (h : st.place id = st.peersPlace ++ [Component.normal (stem ++ ['.', 't', 'o', 'm', 'l'])]) :
    stemOf st id = stem := by
  rw [stemOf, h, entryName_splitAtDot st hne]
  rfl

theorem vecIdPath_map (es : List (List Char × γ)) (h : ∀ e ∈ es, Listed st e.1) :
    st.vecIdPath (es.map (fileOf st)) = es.map fun e => (idDecoded (stemOf st e.1), st.place e.1) := by
  induction es with
  | nil => rfl
  | cons e es ih =>
    obtain ⟨⟨hne, he⟩, hes⟩ := List.forall_mem_cons.mp h
    have hsplit := entryName_splitAtDot st hne
    rw [← he] at hsplit
    have ih := ih hes
    unfold Store.vecIdPath at ih ⊢
    rw [List.map_cons, List.filterMap_cons, fileOf, hsplit]
    simp only [if_true, ih, List.map_cons]

theorem load_map {es : List (List Char × γ)} (h : Apart st es) {e : List Char × γ} (he : e ∈ es) :
    st.load (es.map (fileOf st)) e.1 = (st.decode (st.encode e.2)).getD st.default := by
  have hlookup : (es.map (fileOf st)).lookup (st.place e.1) = some (st.encode e.2) := by
    induction es with
    | nil => exact absurd he List.not_mem_nil
    | cons e' es ih =>
      obtain ⟨hne, hes⟩ := List.pairwise_cons.mp h
      rw [List.map_cons, fileOf, List.lookup_cons]
      rcases List.mem_cons.mp he with rfl | he
      · simp
      · rw [beq_eq_false_iff_ne.mpr (hne e he).symm]
        exact ih hes he
  rw [Store.load, hlookup]

theorem batchPeers_of_loaded (st : Store γ τ) (files : Files τ) :
    ∀ vec : List (List Char × List Component),
    (∀ x ∈ vec, st.platform (st.load files x.1) ≠ "") →
    st.batchPeers vec files = (files, vec.map fun x => (x.1, st.load files x.1))
  | [], _ => rfl
  | (id, p) :: vec, h => by
    obtain ⟨hx, hvec⟩ := List.forall_mem_cons.mp h
    rw [Store.batchPeers]
    dsimp only at hx ⊢
    rw [if_neg hx, batchPeers_of_loaded st files vec hvec]
    rfl

theorem length_batchPeers (st : Store γ τ) : ∀ (vec : List (List Char × List Component))
    (files : Files τ), (st.batchPeers vec files).1.length ≤ files.length
  | [], _ => Nat.le_refl _
  | (id, p) :: vec, files => by
    rw [Store.batchPeers]
    dsimp only
    split_ifs
    · exact (length_batchPeers st vec _).trans (List.length_filter_le _ _)
    · exact length_batchPeers st vec files

theorem loaded_of_batchPeers (st : Store γ τ) (files : Files τ) :
    ∀ vec : List (List Char × List Component), (st.batchPeers vec files).1 = files →
    (∀ x ∈ vec, x.2 ∈ files.map Prod.fst) →
    ∀ x ∈ vec, st.platform (st.load files x.1) ≠ ""
  | [], _, _ => fun x hx => absurd hx List.not_mem_nil
  | (id, p) :: vec, h, hfiles => by
    obtain ⟨hp, hvec⟩ := List.forall_mem_cons.mp hfiles
    have hne : st.platform (st.load files id) ≠ "" := by
      intro hempty
      rw [Store.batchPeers] at h
      dsimp only at h
      rw [if_pos hempty] at h
      have hle := length_batchPeers st vec (files.filter fun f => f.1 ≠ p)
      obtain ⟨f, hf, hfp⟩ := List.mem_map.mp hp
      have hlt : (files.filter fun f => f.1 ≠ p).length < files.length :=
        List.length_filter_lt_length_iff_exists.mpr ⟨f, hf, by simpa using hfp⟩
      rw [h] at hle
      omega
    rw [Store.batchPeers] at h
    dsimp only at h
    rw [if_neg hne] at h
    intro x hx
    rcases List.mem_cons.mp hx with rfl | hx
    · exact hne
    · exact loaded_of_batchPeers st files vec h hvec x hx

/-! ### Maps that survive -/

theorem apart_of_distinct {es : List (List Char × γ)} (hnodup : (es.map Prod.fst).Nodup)
    (h : ∀ e ∈ es, ∀ e' ∈ es, st.place e.1 = st.place e'.1 → e.1 = e'.1) : Apart st es := by
  rw [List.Nodup, List.pairwise_map] at hnodup
  exact hnodup.imp_of_mem fun ha hb hne heq => hne (h _ ha _ hb heq)

theorem place_of_storable {e : List Char × γ} (h : Storable st e) : '/' ∉ idEncoded e.1 ∧
    st.place e.1 = st.peersPlace ++ [Component.normal (idEncoded e.1 ++ ['.', 't', 'o', 'm', 'l'])] := by
  have hsep : '/' ∉ idEncoded e.1 := by
    unfold idEncoded
    split_ifs with hf
    · rw [List.mem_append, not_or]
      exact ⟨by decide, h.noSlash hf⟩
    · intro hmem
      exact hf (List.any_eq_true.mpr ⟨'/', hmem, by decide⟩)
  exact ⟨hsep, place_idEncoded st hsep h.named⟩

theorem idEncoded_ne_nil {id : List Char} (h : id ≠ []) : idEncoded id ≠ [] := by
  unfold idEncoded
  split_ifs
  · simp [base64Prefix]
  · exact h

theorem idDecoded_idEncoded {e : List Char × γ} (h : Storable st e) :
    idDecoded (idEncoded e.1) = e.1 := by
  unfold idEncoded
  split_ifs with hf
  · exact idDecoded_base64 h.named.1
  · exact idDecoded_plain (h.noPrefix (by simpa using hf))

theorem listed_of_storable {e : List Char × γ} (h : Storable st e) :
    Listed st e.1 ∧ stemOf st e.1 = idEncoded e.1 := by
  obtain ⟨-, hplace⟩ := place_of_storable h
  have hne := idEncoded_ne_nil h.named.1
  have hstem := stemOf_eq hne hplace
  exact ⟨⟨by rwa [hstem], by rwa [hstem]⟩, hstem⟩

theorem distinct_of_storable {e e' : List Char × γ} (h : Storable st e) (h' : Storable st e')
    (heq : st.place e.1 = st.place e'.1) : e.1 = e'.1 := by
  have hstem := congrArg (fun p => (((st.entryName p).bind splitAtDot).map Prod.fst).getD []) heq
  change stemOf st e.1 = stemOf st e'.1 at hstem
  rw [(listed_of_storable h).2, (listed_of_storable h').2] at hstem
  rw [← idDecoded_idEncoded h, hstem, idDecoded_idEncoded h']

theorem survives_of_storable (m : PeerMap st) (h : ∀ e ∈ m.entries, Storable st e) :
    m.Survives := by
  have hdistinct : ∀ e ∈ m.entries, ∀ e' ∈ m.entries, st.place e.1 = st.place e'.1 → e.1 = e'.1 :=
    fun e he e' he' => distinct_of_storable (h e he) (h e' he')
  have hapart := apart_of_distinct m.nodup hdistinct
  have hfiles : m.files = m.entries.reverse.map (fileOf st) := by
    rw [PeerMap.files, foldl_store st _ hapart,
      List.filter_eq_self.mpr fun e he => (h e he).accepted]
  have hrev : ∀ e ∈ m.entries.reverse, e ∈ m.entries := fun e => List.mem_reverse.mp
  have hvec : st.vecIdPath m.files = m.entries.reverse.map fun e => (e.1, st.place e.1) := by
    rw [hfiles, vecIdPath_map _ fun e he => (listed_of_storable (h e (hrev e he))).1]
    apply List.map_congr_left
    intro e he
    rw [(listed_of_storable (h e (hrev e he))).2, idDecoded_idEncoded (h e (hrev e he))]
  have hload : ∀ e ∈ m.entries, st.load m.files e.1 = e.2 := by
    intro e he
    rw [hfiles, load_map (List.pairwise_reverse.mpr (hapart.imp Ne.symm)) (List.mem_reverse.mpr he),
      (h e he).readable]
    rfl
  -- every file of the directory has an entry, and loads it
  have hbatch : ∀ vec, vec.Perm (st.vecIdPath m.files) →
      st.batchPeers vec m.files = (m.files, vec.map fun x => (x.1, st.load m.files x.1)) := by
    intro vec hperm
    apply batchPeers_of_loaded
    intro x hx
    rw [hperm.mem_iff, hvec] at hx
    obtain ⟨e, he, rfl⟩ := List.mem_map.mp hx
    rw [hload e (hrev e he)]
    exact m.platform e (hrev e he)
  refine ⟨fun vec hperm => ?_, fun vec hperm => ?_, fun e he => ?_, hdistinct⟩
  · rw [hbatch vec hperm]
    have hmap : (st.vecIdPath m.files).map (fun x => (x.1, st.load m.files x.1)) =
        m.entries.reverse := by
      rw [hvec, List.map_map]
      conv_rhs => rw [← List.map_id m.entries.reverse]
      apply List.map_congr_left
      intro e he
      simp [hload e (hrev e he)]
    have hp := hperm.map fun x => (x.1, st.load m.files x.1)
    rw [hmap] at hp
    exact hp.trans (List.reverse_perm _)
  · rw [hbatch vec hperm]
  · exact ⟨_, (place_of_storable (h e he)).2⟩

/-- A plain id that the list takes for base64. -/
def Misread (id : List Char) : Prop :=
  isForbidden id = false ∧ base64Prefix <+: id ∧ id ≠ base64Prefix

instance (id : List Char) : Decidable (Misread id) := inferInstanceAs (Decidable (_ ∧ _ ∧ _))

/-- Such an id can only come back from a longer one of the same kind. -/
theorem misread_of_decoded {id id' : List Char} (h : Misread id)
    (hdec : idDecoded (idEncoded id') = id) (hne : id' ≠ []) :
    Misread id' ∧ id.length < id'.length := by
  by_cases hf : isForbidden id' = true
  · rw [idEncoded, if_pos hf, idDecoded_base64 hne] at hdec
    rw [hdec, h.1] at hf
    cases hf
  · rw [idEncoded, if_neg hf] at hdec
    have hbad : Misread id' := by
      refine ⟨by simpa using hf, ?_⟩
      by_contra hno
      have hplain : idDecoded id' = id' := idDecoded_plain fun hpre => by
        by_contra hnot
        exact hno ⟨hpre, hnot⟩
      rw [hplain] at hdec
      exact hno (hdec ▸ h.2)
    refine ⟨hbad, ?_⟩
    obtain ⟨-, ⟨rest, rfl⟩, hnot⟩ := hbad
    have hrest : rest ≠ [] := by
      rintro rfl
      exact hnot (List.append_nil _)
    have hlt := length_idDecoded hrest
    rwa [hdec] at hlt

/-- Among finitely many ids there is a longest one, so none of them is misread. -/
theorem not_misread {es : List (List Char × γ)}
    (h : ∀ e ∈ es, ∃ e' ∈ es, idDecoded (idEncoded e'.1) = e.1 ∧ e'.1 ≠ []) :
    ∀ e ∈ es, ¬ Misread e.1 := by
  intro e he hbad
  have hmem : e ∈ es.filter fun e => Misread e.1 := List.mem_filter.mpr ⟨he, decide_eq_true hbad⟩
  obtain ⟨top, htop⟩ : ∃ top, List.argmax (fun e => e.1.length)
      (es.filter fun e => Misread e.1) = some top := by
    apply Option.ne_none_iff_exists'.mp
    rw [Ne, List.argmax_eq_none]
    exact List.ne_nil_of_mem hmem
  obtain ⟨hmemtop, hbadtop⟩ := List.mem_filter.mp (List.argmax_mem htop)
  obtain ⟨e', he', hdec, hne⟩ := h top hmemtop
  obtain ⟨hbad', hlt⟩ := misread_of_decoded (of_decide_eq_true hbadtop) hdec hne
  have hle := List.le_of_mem_argmax (List.mem_filter.mpr ⟨he', decide_eq_true hbad'⟩) htop
  omega

theorem storable_of_survives (m : PeerMap st) (h : m.Survives) :
    ∀ e ∈ m.entries, Storable st e := by
  have hapart := apart_of_distinct m.nodup h.distinct
  let acc := (m.entries.filter fun e => st.accepts (st.place e.1)).reverse
  have hacc : ∀ e ∈ acc, e ∈ m.entries := fun e he =>
    (List.mem_filter.mp (List.mem_reverse.mp he)).1
  have hfiles : m.files = acc.map (fileOf st) := foldl_store st _ hapart
  have hstem : ∀ e ∈ m.entries, Listed st e.1 ∧
      ((stemOf st e.1 = idEncoded e.1 ∧ (isForbidden e.1 = true → '/' ∉ base64Text e.1)) ∨
        idDecoded (stemOf st e.1) = []) := by
    intro e he
    obtain ⟨-, stem, hne, hplace, hcase⟩ := stem_of_inside (h.inside e he)
    have hs := stemOf_eq hne hplace
    exact ⟨⟨by rwa [hs], by rwa [hs]⟩, by rwa [hs]⟩
  have hvec : st.vecIdPath m.files =
      acc.map fun e => (idDecoded (stemOf st e.1), st.place e.1) := by
    rw [hfiles]
    exact vecIdPath_map _ fun e he => (hstem e (hacc e he)).1
  have hloaded : ∀ x ∈ st.vecIdPath m.files, st.platform (st.load m.files x.1) ≠ "" := by
    apply loaded_of_batchPeers st m.files _ (h.undeleted _ (List.Perm.refl _))
    intro x hx
    rw [hvec] at hx
    obtain ⟨e, he, rfl⟩ := List.mem_map.mp hx
    rw [hfiles, List.map_map]
    exact List.mem_map.mpr ⟨e, he, rfl⟩
  have hperm := h.listed _ (List.Perm.refl _)
  rw [batchPeers_of_loaded st _ _ hloaded, hvec, List.map_map] at hperm
  have haccepted : ∀ e ∈ m.entries, st.accepts (st.place e.1) = true := by
    have hlen := hperm.length_eq
    simp only [acc, List.length_map, List.length_reverse] at hlen
    exact List.length_filter_eq_length_iff.mp hlen
  have hall : ∀ e ∈ m.entries, e ∈ acc := fun e he =>
    List.mem_reverse.mpr (List.mem_filter.mpr ⟨he, haccepted e he⟩)
  have hid : ∀ e ∈ m.entries, e.1 ≠ [] ∧ e.1 ≠ ['.'] ∧ e.1 ≠ ['.', '.'] := fun e he =>
    (stem_of_inside (h.inside e he)).1
  -- a name that has lost its slash would stand for the empty id, which nobody has
  have henc : ∀ e ∈ m.entries, stemOf st e.1 = idEncoded e.1 ∧
      (isForbidden e.1 = true → '/' ∉ base64Text e.1) := by
    intro e he
    rcases (hstem e he).2 with hcase | hnil
    · exact hcase
    · have hmem := hperm.mem_iff.mp (List.mem_map.mpr ⟨e, hall e he, rfl⟩)
      exact absurd hnil (hid _ hmem).1
  have hfrom : ∀ e ∈ m.entries, st.load m.files e.1 = e.2 ∧
      ∃ e' ∈ m.entries, idDecoded (idEncoded e'.1) = e.1 ∧ e'.1 ≠ [] := by
    intro e he
    obtain ⟨e', he', heq⟩ := List.mem_map.mp (hperm.mem_iff.mpr he)
    have hdec : idDecoded (idEncoded e'.1) = e.1 := by
      rw [← (henc e' (hacc e' he')).1]
      exact congrArg Prod.fst heq
    refine ⟨?_, e', hacc e' he', hdec, (hid e' (hacc e' he')).1⟩
    rw [← congrArg Prod.fst heq]
    exact congrArg Prod.snd heq
  have hclean := not_misread fun e he => (hfrom e he).2
  intro e he
  refine ⟨hid e he, (henc e he).2, fun hf hpre => ?_, haccepted e he, ?_⟩
  · by_contra hne
    exact hclean e he ⟨hf, hpre, hne⟩
  · have hload := (hfrom e he).1
    have hpair : Apart st acc := List.pairwise_reverse.mpr ((hapart.filter _).imp Ne.symm)
    rw [hfiles, load_map hpair (hall e he)] at hload
    cases hdec : st.decode (st.encode e.2) with
    | some c =>
      rw [hdec, Option.getD_some] at hload
      rw [hload]
    | none =>
      rw [hdec, Option.getD_none] at hload
      exact absurd st.platform_default (hload ▸ m.platform e he)

end PeerConfig

open PeerConfig in
theorem peerMap_survives_iff {γ τ : Type} (st : Store γ τ) (m : PeerMap st) :
    m.Survives ↔ ∀ e ∈ m.entries, Storable st e :=
  ⟨storable_of_survives m, survives_of_storable m⟩

/-- A configuration by its platform, in files that hold it as it is. -/
def plainStore : PeerConfig.Store String String where
  base := "/root/.config/rustdesk".toList
  accepts := fun _ => true
  encode := id
  decode := some
  platform := id
  default := ""
  platform_default := rfl

/-- One peer, whose id is in base64 with a slash at the end. -/
def questionPeer : PeerConfig.PeerMap plainStore where
  entries := [(['?', '?', '?'], "Linux")]
  nodup := by decide
  platform := by decide

theorem peerMap_question : ¬ questionPeer.Survives := by
  intro h
  have hno := (PeerConfig.storable_of_survives questionPeer h _ List.mem_cons_self).noSlash rfl
  exact absurd hno (by decide)

end RustDesk
