import RustDesk.TransferJob
import RustDesk.UnixPath

/-!
# The paths of a transfer

A peer names the files of a transfer, relative to a directory of this machine. The names are
checked twice: as text, between the separators, for `..` and for a leading separator; and as
paths, component by component, for links that exist in the file system. `FileSystem.onUnix`
puts the second check, and the joining of paths, where the jobs call them.
-/

namespace RustDesk

open UnixPath (Component lexical)

/-- What `symlink_metadata` finds at a path. -/
inductive LinkStat
  | symlink
  | other
  | notFound
  | failed (err : String)
  deriving DecidableEq, Repr

/-- The entries of a file system, by the components of their paths. -/
abbrev Links := List Component → LinkStat

def symlinkMetadata (links : Links) (path : String) : LinkStat := links (lexical path.toList)

def pushPath (p q : String) : String := String.ofList (UnixPath.push p.toList q.toList)

/-- The loop of `validate_no_symlink_components`. -/
def validateComponents (links : Links) (current : String) : List Component → Option String
  | [] => none
  | .normal seg :: cs =>
    let current := pushPath current (String.ofList seg)
    match symlinkMetadata links current with
    | .symlink => some "symlink path component is not allowed"
    | .failed err => some ("failed to validate path component '" ++ current ++ "': " ++ err)
    | .other => validateComponents links current cs
    | .notFound => validateComponents links current cs
  | .curDir :: cs => validateComponents links current cs
  | .parentDir :: _ => some "invalid file name component"
  | .rootDir :: _ => some "invalid file name component"

/-- The calls of a job on a Unix system with the given entries. -/
def FileSystem.onUnix (links : Links) (fs : FileSystem) : FileSystem :=
  { fs with
    windows := false
    push := pushPath
    noSymlinkComponents := fun base name =>
      validateComponents links base (UnixPath.components name.toList) }

/-- The loop of `validate_transfer_file_names`. -/
def validateEach (windows : Bool) : List FileEntry → Option String
  | [] => none
  | f :: fs =>
    if f.name = "" then some "empty file name in multi-file transfer"
    else
      match validateFileNameNoTraversal windows f.name with
      | some err => some err
      | none => validateEach windows fs

def validateTransferFileNames (windows : Bool) (files : List FileEntry) : Option String :=
  if files.length = 1 ∧ (files.head?.map (·.name)) = some "" then none
  else validateEach windows files

/-- A job with the size it was announced with. -/
structure ListedJob extends TransferJob where
  totalSize : Nat := 0
  deriving DecidableEq, Repr

namespace ListedJob

def setFiles (fs : FileSystem) (files : List FileEntry) (job : ListedJob) :
    Except String Unit × ListedJob :=
  match validateTransferFileNames fs.windows files with
  | some err => (.error err, job)
  | none =>
    let accepted := { job with files, totalSize := (files.map (·.size)).sum % 2 ^ 64 }
    match job.dataSource with
    | .filePath base =>
      match files.findSome? fun f => TransferJob.validateNoSymlinkComponents fs base f.name with
      | some err => (.error err, job)
      | none => (.ok (), accepted)
    | .memoryCursor _ => (.ok (), accepted)

end ListedJob

namespace PathConfinement

/-- A path that lies in a directory: the name is relative and has no `..`, the path goes down
from the directory, and no entry on the way is a link. -/
structure Confined (links : Links) (base name path : String) : Prop where
  relative : UnixPath.isAbsolute name.toList = false
  noParent : ['.', '.'] ∉ name.toList.splitOn '/'
  below : ∃ segs : List (List Char), lexical path.toList = lexical base.toList ++ segs.map .normal
  noLinks : ∀ q, lexical base.toList <+: q → q ≠ lexical base.toList → q <+: lexical path.toList →
    links q ≠ .symlink

variable {fs : FileSystem} {links : Links} {base name path : String}

/-! ### The name as text -/

theorem nameSegments_unix (name : String) : nameSegments false name = name.toList.splitOn '/' := by
  rw [nameSegments, List.splitOn_eq_splitOnP]
  congr 1
  funext c
  simp [Bool.beq_eq_decide_eq]

theorem validName (h : validateFileNameNoTraversal false name = none) :
    UnixPath.isAbsolute name.toList = false ∧ ['.', '.'] ∉ name.toList.splitOn '/' := by
  unfold validateFileNameNoTraversal at h
  rw [nameSegments_unix] at h
  dsimp only at h
  split_ifs at h with hnul hdots hdrive hroot
  refine ⟨?_, ?_⟩
  · cases hname : name.toList with
    | nil => rfl
    | cons c cs =>
      rw [hname] at hroot
      simpa [UnixPath.isAbsolute] using hroot
  · intro hmem
    apply hdots
    rw [List.any_eq_true]
    exact ⟨_, hmem, by simp⟩

/-- A segment that is a component of its own. -/
def Plain (seg : List Char) : Prop := '/' ∉ seg ∧ UnixPath.segment seg = some (.normal seg)

theorem filterMap_plain {segs : List (List Char)} (hsep : ∀ seg ∈ segs, '/' ∉ seg)
    (hdots : ['.', '.'] ∉ segs) :
    ∃ plain : List (List Char), segs.filterMap UnixPath.segment = plain.map .normal ∧
      ∀ seg ∈ plain, Plain seg := by
  induction segs with
  | nil => exact ⟨[], rfl, fun seg hseg => (by cases hseg)⟩
  | cons seg segs ih =>
    obtain ⟨hseg, hsegs⟩ := List.forall_mem_cons.mp hsep
    rw [List.mem_cons, not_or] at hdots
    obtain ⟨plain, hplain, hall⟩ := ih hsegs hdots.2
    cases hs : UnixPath.segment seg with
    | none =>
      rw [List.filterMap_cons_none hs]
      exact ⟨plain, hplain, hall⟩
    | some c =>
      have hc : UnixPath.segment seg = some (.normal seg) := by
        unfold UnixPath.segment at hs ⊢
        split_ifs at hs ⊢ with hnone hparent
        · exact absurd hparent.symm hdots.1
        · rfl
      refine ⟨seg :: plain, ?_, ?_⟩
      · rw [List.filterMap_cons_some hc, hplain]
        rfl
      · exact List.forall_mem_cons.mpr ⟨⟨hseg, hc⟩, hall⟩

/-- The components of a name that passed, apart from `.`. -/
theorem lexical_validName (habs : UnixPath.isAbsolute name.toList = false)
    (hdots : ['.', '.'] ∉ name.toList.splitOn '/') :
    ∃ plain : List (List Char), lexical name.toList = plain.map .normal ∧
      ∀ seg ∈ plain, Plain seg := by
  rw [UnixPath.lexical_relative habs]
  exact filterMap_plain (fun seg hseg => SplitText.notMem_of_mem_splitOn hseg) hdots

/-! ### The name as a path -/

theorem lexical_pushPath (hq : UnixPath.isAbsolute name.toList = false) :
    lexical (pushPath base name).toList = lexical base.toList ++ lexical name.toList := by
  rw [pushPath, String.toList_ofList, UnixPath.lexical_push _ hq]

/-- A loop that ends without an error has seen every path on the way, and no link. -/
theorem noLinks_of_validateComponents {plain : List (List Char)} (hplain : ∀ seg ∈ plain, Plain seg)
    (h : validateComponents links base (plain.map .normal) = none) (q : List Component)
    (hbase : lexical base.toList <+: q) (hne : q ≠ lexical base.toList)
    (hq : q <+: lexical base.toList ++ plain.map .normal) : links q ≠ .symlink := by
  induction plain generalizing base with
  | nil =>
    rw [List.map_nil, List.append_nil] at hq
    exact absurd (hq.eq_of_length_le hbase.length_le) hne
  | cons seg plain ih =>
    obtain ⟨⟨hsep, hseg⟩, hrest⟩ := List.forall_mem_cons.mp hplain
    have hnext : lexical (pushPath base (String.ofList seg)).toList =
        lexical base.toList ++ [Component.normal seg] := by
      obtain ⟨habs, hlex⟩ := UnixPath.lexical_name hsep hseg
      rw [lexical_pushPath (by rw [String.toList_ofList]; exact habs), String.toList_ofList, hlex]
    have hhere : links (lexical base.toList ++ [Component.normal seg]) ≠ .symlink ∧
        validateComponents links (pushPath base (String.ofList seg)) (plain.map .normal) = none := by
      rw [List.map_cons, validateComponents, symlinkMetadata, hnext] at h
      cases hstat : links (lexical base.toList ++ [Component.normal seg]) with
      | symlink =>
        rw [hstat] at h
        cases h
      | failed err =>
        rw [hstat] at h
        cases h
      | other =>
        rw [hstat] at h
        exact ⟨by simp, h⟩
      | notFound =>
        rw [hstat] at h
        exact ⟨by simp, h⟩
    obtain ⟨r, rfl⟩ := hbase
    cases r with
    | nil => simp at hne
    | cons c r =>
      rw [List.map_cons, List.prefix_append_right_inj] at hq
      obtain ⟨rfl, hr⟩ := List.cons_prefix_cons.mp hq
      by_cases hlast : r = []
      · rw [hlast]
        exact hhere.1
      · apply ih hrest hhere.2
        · rw [hnext]
          exact ⟨r, by simp⟩
        · rw [hnext]
          intro heq
          apply hlast
          simpa using heq
        · rw [hnext, List.append_assoc, List.singleton_append, List.prefix_append_right_inj]
          exact hq

theorem validateComponents_lexical
    (h : TransferJob.validateNoSymlinkComponents (fs.onUnix links) base name = none) :
    validateComponents links base (lexical name.toList) = none := by
  unfold TransferJob.validateNoSymlinkComponents at h
  split_ifs at h with hempty
  · subst hempty
    rfl
  · change validateComponents links base (UnixPath.components name.toList) = none at h
    unfold UnixPath.components at h
    split_ifs at h
    · exact h
    · exact h

theorem confined_of_valid (hname : validateFileNameNoTraversal false name = none)
    (hlinks : TransferJob.validateNoSymlinkComponents (fs.onUnix links) base name = none) :
    Confined links base name (TransferJob.join (fs.onUnix links) base name) := by
  obtain ⟨habs, hdots⟩ := validName hname
  obtain ⟨plain, hlex, hplain⟩ := lexical_validName habs hdots
  have hpath : lexical (TransferJob.join (fs.onUnix links) base name).toList =
      lexical base.toList ++ plain.map .normal := by
    rw [TransferJob.join]
    split_ifs with hempty
    · subst hempty
      rw [← hlex]
      exact (List.append_nil _).symm
    · exact (lexical_pushPath habs).trans (by rw [hlex])
  have hwalk := validateComponents_lexical hlinks
  rw [hlex] at hwalk
  refine ⟨habs, hdots, ⟨plain, hpath⟩, ?_⟩
  rw [hpath]
  exact noLinks_of_validateComponents hplain hwalk

/-! ### The list of a job -/

theorem validName_of_validateEach {files : List FileEntry} (h : validateEach false files = none)
    {f : FileEntry} (hf : f ∈ files) : validateFileNameNoTraversal false f.name = none := by
  induction files with
  | nil => cases hf
  | cons g files ih =>
    unfold validateEach at h
    split_ifs at h
    cases hg : validateFileNameNoTraversal false g.name with
    | some err =>
      rw [hg] at h
      cases h
    | none =>
      rw [hg] at h
      rcases List.mem_cons.mp hf with rfl | hf
      · exact hg
      · exact ih h hf

/-- One entry may have no name; the empty name has no component to object to. -/
theorem validName_of_validate {files : List FileEntry}
    (h : validateTransferFileNames false files = none) {f : FileEntry} (hf : f ∈ files) :
    validateFileNameNoTraversal false f.name = none := by
  unfold validateTransferFileNames at h
  split_ifs at h with hsingle
  · obtain ⟨g, rfl⟩ := List.length_eq_one_iff.mp hsingle.1
    rw [List.mem_singleton] at hf
    subst hf
    have hname : f.name = "" := by simpa using hsingle.2
    rw [hname]
    decide
  · exact validName_of_validateEach h hf

theorem setFiles_ok {files : List FileEntry} {job job' : ListedJob}
    (h : job.setFiles (fs.onUnix links) files = (.ok (), job')) :
    validateTransferFileNames false files = none ∧ job'.files = files ∧
      ∀ base, job.dataSource = .filePath base → ∀ f ∈ files,
        TransferJob.validateNoSymlinkComponents (fs.onUnix links) base f.name = none := by
  unfold ListedJob.setFiles at h
  change (match validateTransferFileNames false files with | some err => _ | none => _) = _ at h
  cases hnames : validateTransferFileNames false files with
  | some err =>
    rw [hnames] at h
    cases h
  | none =>
    rw [hnames] at h
    dsimp only at h
    cases hsource : job.dataSource with
    | memoryCursor data =>
      rw [hsource] at h
      cases h
      exact ⟨rfl, rfl, fun base hbase => (by cases hbase)⟩
    | filePath base =>
      rw [hsource] at h
      dsimp only at h
      cases hlinks : files.findSome? fun f =>
          TransferJob.validateNoSymlinkComponents (fs.onUnix links) base f.name with
      | some err =>
        rw [hlinks] at h
        cases h
      | none =>
        rw [hlinks] at h
        cases h
        refine ⟨rfl, rfl, fun base' hbase f hf => ?_⟩
        cases hbase
        exact List.findSome?_eq_none_iff.mp hlinks f hf

theorem setFiles_error {files : List FileEntry} {job job' : ListedJob} {err : String}
    (h : job.setFiles fs files = (.error err, job')) : job' = job := by
  unfold ListedJob.setFiles at h
  dsimp only at h
  split at h
  · cases h
    rfl
  · split at h
    · split at h
      · cases h
        rfl
      · cases h
    · cases h

/-- On a Unix system, whatever its entries are: a name that `join_validated_path` accepts, and
every name of a list that `set_files` accepts, leads to a path in the directory with no link
on the way; and a list that is refused leaves the files and the size of the job. -/
theorem accepted_confined (fs : FileSystem) (links : Links) :
    (∀ base name path, TransferJob.joinValidatedPath (fs.onUnix links) base name = .ok path →
      path = TransferJob.join (fs.onUnix links) base name ∧ Confined links base name path) ∧
    (∀ (job job' : ListedJob) (files : List FileEntry) (base : String),
      job.dataSource = .filePath base → job.setFiles (fs.onUnix links) files = (.ok (), job') →
      job'.files = files ∧ ∀ f ∈ files,
        Confined links base f.name (TransferJob.join (fs.onUnix links) base f.name)) ∧
    ∀ (job job' : ListedJob) (files : List FileEntry) (err : String),
      job.setFiles (fs.onUnix links) files = (.error err, job') →
      job'.files = job.files ∧ job'.totalSize = job.totalSize := by
  refine ⟨?_, ?_, ?_⟩
  · intro base name path h
    unfold TransferJob.joinValidatedPath at h
    change (match validateFileNameNoTraversal false name with | some err => _ | none => _) = _ at h
    cases hname : validateFileNameNoTraversal false name with
    | some err =>
      rw [hname] at h
      cases h
    | none =>
      rw [hname] at h
      dsimp only at h
      cases hlinks : TransferJob.validateNoSymlinkComponents (fs.onUnix links) base name with
      | some err =>
        rw [hlinks] at h
        cases h
      | none =>
        rw [hlinks] at h
        cases h
        exact ⟨rfl, confined_of_valid hname hlinks⟩
  · intro job job' files base hsource h
    obtain ⟨hnames, hfiles, hlinks⟩ := setFiles_ok h
    refine ⟨hfiles, fun f hf => ?_⟩
    exact confined_of_valid (validName_of_validate hnames hf) (hlinks base hsource f hf)
  · intro job job' files err h
    rw [setFiles_error h]
    exact ⟨rfl, rfl⟩

/-- A system on which every other call fails. -/
def bareSystem : FileSystem where
  push p _ := p
  fileName _ := none
  noSymlinkComponents _ _ := none
  fileExists _ := false
  openRead _ := some "denied"
  openWrite _ := some "denied"
  seek _ := false
  metadata _ := .error "denied"
  read _ _ := .error "denied"
  compress data := data

/-- `/downloads/link` is a link, and nothing else exists. -/
def oneLink : Links := fun q =>
  if q = lexical "/downloads/link".toList then .symlink else .notFound

def downloadsJob : ListedJob := { id := 1, dataSource := .filePath "/downloads" }

def twoNames : List FileEntry := [{ name := "docs//a.txt", size := 3 }, { name := "./b/", size := 4 }]

theorem confined_twoNames :
    ∀ f ∈ twoNames, Confined oneLink "/downloads" f.name
      (TransferJob.join (bareSystem.onUnix oneLink) "/downloads" f.name) :=
  ((accepted_confined bareSystem oneLink).2.1 downloadsJob
    { downloadsJob with files := twoNames, totalSize := 7 } twoNames "/downloads" rfl
    (by rfl)).2

/-- The link is refused as a part of a name. -/
example : (downloadsJob.setFiles (bareSystem.onUnix oneLink) [{ name := "link/a.txt" }]).1 =
    .error "symlink path component is not allowed" := by
  rfl

end PathConfinement

end RustDesk
