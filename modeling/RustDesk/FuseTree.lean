import RustDesk.FileDescriptors
import RustDesk.UnixPath
import Mathlib.Logic.Relation
import Mathlib.Data.List.Nodup
import Mathlib.Data.List.Count

/-!
# The tree of the files to be pasted

`build_tree` makes the nodes that the file system shows of the list a peer sent. Node `i + 1` is
made of file `i`; its parent is looked up by its path among the directories that came before, and is
the root where there is none. `nodeAt` says of a list what each node must be, and every step of the
loop keeps the nodes as it says, whatever the list repeats, leaves out or has in the wrong order.
-/

namespace RustDesk.Clipboard.Fuse

open UnixPath (Component components fileName)

def fuseRootId : Nat := 1

/-- The clock is read once for a node. Where the source has four times of a description they are
one. -/
structure InodeAttributes where
  inode : Nat
  size : Nat
  lastAccessed : Nat
  lastModified : Nat
  kind : FileType
  perm : Nat
  deriving DecidableEq, Repr

structure FuseNode where
  connId : BitVec 32
  index : Nat
  parent : Option Nat
  name : String
  attributes : InodeAttributes
  children : List Nat
  deriving DecidableEq, Repr

namespace InodeAttributes

def fromDescription (now inode : Nat) (desc : FileDescription) : InodeAttributes where
  inode := inode
  size := desc.size
  lastAccessed := now
  lastModified := desc.lastModified
  kind := desc.kind
  perm := desc.perm

def newRoot (now : Nat) : InodeAttributes where
  inode := fuseRootId
  size := 0
  lastAccessed := now
  lastModified := now
  kind := .directory
  perm := permRwx

end InodeAttributes

/-- `CliprdrError::FileError` for data that is not valid. -/
structure InvalidName where
  path : String
  err : String
  deriving DecidableEq, Repr

/-- Paths are equal, as keys of the map, when their components are. -/
abbrev SubRootMap := List (List Component × Nat)

structure Progress where
  treeList : List FuseNode
  subRootMap : SubRootMap

namespace FuseNode

def fromDescription (now inode : Nat) (desc : FileDescription) : FuseNode where
  connId := desc.connId
  index := inode - 2
  name := desc.name
  parent := none
  attributes := .fromDescription now inode desc
  children := []

def newRoot (now : Nat) : FuseNode where
  connId := 0
  index := 0
  name := "/"
  parent := none
  attributes := .newRoot now
  children := []

def addChild (inode : Nat) (node : FuseNode) : FuseNode :=
  { node with children := node.children ++ [inode] }

def parentInode (map : SubRootMap) (name : List Char) : Nat :=
  match UnixPath.parent name with
  | some parent => (map.lookup (components parent)).getD fuseRootId
  | none => fuseRootId

/-- One round of the loop; `now` is the clock when a node is made. -/
def addFile (now : Nat → Nat) (p : Progress) (file : FileDescription) : Except InvalidName Progress :=
  let name := file.name.toList
  let inode := p.treeList.length + fuseRootId
  let parent := parentInode p.subRootMap name
  let treeList := p.treeList.modify (parent - 1) (addChild inode)
  match fileName name with
  | none => .error ⟨file.name, "invalid file name " ++ file.name⟩
  | some baseName =>
    let subRootMap :=
      if file.kind = .directory then (components name, inode) :: p.subRootMap else p.subRootMap
    let desc := { file with name := String.ofList baseName }
    let fuseNode := { fromDescription (now inode) inode desc with parent := some parent }
    .ok ⟨treeList ++ [fuseNode], subRootMap⟩

def addFiles (now : Nat → Nat) : List FileDescription → Progress → Except InvalidName Progress
  | [], p => .ok p
  | file :: files, p =>
    match addFile now p file with
    | .error e => .error e
    | .ok p => addFiles now files p

def start (now : Nat → Nat) : Progress where
  treeList := [newRoot (now fuseRootId)]
  subRootMap := [(components [], fuseRootId), (components ['/'], fuseRootId)]

def buildTree (now : Nat → Nat) (files : List FileDescription) : Except InvalidName (List FuseNode) :=
  (addFiles now files (start now)).map Progress.treeList

end FuseNode

/-! ### What the nodes of a list are -/

/-- A directory with the path `key`. -/
def IsDirectory (key : List Component) (file : FileDescription) : Prop :=
  file.kind = .directory ∧ components file.name.toList = key

instance (key : List Component) (file : FileDescription) : Decidable (IsDirectory key file) :=
  inferInstanceAs (Decidable (_ ∧ _))

/-- The place of the last directory with the path `key`. -/
def lastDirectory (key : List Component) : List FileDescription → Option Nat
  | [] => none
  | file :: files =>
    match lastDirectory key files with
    | some i => some (i + 1)
    | none => if IsDirectory key file then some 0 else none

/-- The parent of a file behind others. -/
def parentOf (prior : List FileDescription) (file : FileDescription) : Nat :=
  match UnixPath.parent file.name.toList with
  | some parent => ((lastDirectory (components parent) prior).map (· + 2)).getD fuseRootId
  | none => fuseRootId

def parentAt (files : List FileDescription) (i : Nat) : Nat :=
  (files[i]?.map (parentOf (files.take i))).getD fuseRootId

def childrenOf (files : List FileDescription) (inode : Nat) : List Nat :=
  ((List.range files.length).filter (parentAt files · = inode)).map (· + 2)

/-- The node of a file, apart from its parent and its children. -/
def describe (now : Nat → Nat) (i : Nat) (file : FileDescription) : FuseNode :=
  .fromDescription (now (i + 2)) (i + 2)
    { file with name := String.ofList ((fileName file.name.toList).getD []) }

def nodeAt (now : Nat → Nat) (files : List FileDescription) : Nat → Option FuseNode
  | 0 => some { FuseNode.newRoot (now fuseRootId) with children := childrenOf files fuseRootId }
  | i + 1 => files[i]?.map fun file =>
      { describe now i file with
        parent := some (parentAt files i)
        children := childrenOf files (i + 2) }

section LastDirectory

variable {key : List Component} {files : List FileDescription}

theorem lastDirectory_append (key : List Component) (files : List FileDescription)
    (file : FileDescription) : lastDirectory key (files ++ [file]) =
      if IsDirectory key file then some files.length else lastDirectory key files := by
  induction files with
  | nil => rfl
  | cons f files ih =>
    rw [List.cons_append, lastDirectory, ih]
    by_cases hdir : IsDirectory key file
    · rw [if_pos hdir, if_pos hdir]
      rfl
    · rw [if_neg hdir, if_neg hdir]
      rfl

theorem lastDirectory_none (h : lastDirectory key files = none) :
    ∀ file ∈ files, ¬ IsDirectory key file := by
  induction files with
  | nil => exact nofun
  | cons f files ih =>
    rw [lastDirectory] at h
    cases hrest : lastDirectory key files with
    | some i =>
      rw [hrest] at h
      cases h
    | none =>
      rw [hrest] at h
      refine List.forall_mem_cons.mpr ⟨fun hdir => ?_, ih hrest⟩
      rw [if_pos hdir] at h
      cases h

theorem lastDirectory_some {i : Nat} (h : lastDirectory key files = some i) :
    (∃ dir, files[i]? = some dir ∧ IsDirectory key dir) ∧
      ∀ k other, i < k → files[k]? = some other → ¬ IsDirectory key other := by
  induction files generalizing i with
  | nil => cases h
  | cons f files ih =>
    rw [lastDirectory] at h
    cases hrest : lastDirectory key files with
    | some j =>
      rw [hrest] at h
      obtain rfl := Option.some.inj h
      obtain ⟨hdir, hlast⟩ := ih hrest
      refine ⟨hdir, fun k other hk hother => ?_⟩
      cases k with
      | zero => omega
      | succ k => exact hlast k other (by omega) hother
    | none =>
      rw [hrest] at h
      by_cases hdir : IsDirectory key f
      · rw [if_pos hdir] at h
        obtain rfl := Option.some.inj h
        refine ⟨⟨f, rfl, hdir⟩, fun k other hk hother => ?_⟩
        cases k with
        | zero => omega
        | succ k => exact lastDirectory_none hrest other (List.mem_of_getElem? hother)
      · rw [if_neg hdir] at h
        cases h

end LastDirectory

/-! ### Parents and children -/

section Snoc

variable (files : List FileDescription) (file : FileDescription)

theorem one_le_parentOf : 1 ≤ parentOf files file := by
  unfold parentOf
  split
  · cases lastDirectory _ files with
    | none => exact le_rfl
    | some i => exact Nat.le_add_left 1 (i + 1)
  · exact le_rfl

theorem parentOf_lt : parentOf files file < files.length + 2 := by
  unfold parentOf fuseRootId
  split
  · cases hlast : lastDirectory _ files with
    | none =>
      dsimp only [Option.map_none, Option.getD_none]
      omega
    | some i =>
      obtain ⟨⟨dir, hget, -⟩, -⟩ := lastDirectory_some hlast
      have hlt := (List.getElem?_eq_some_iff.mp hget).1
      dsimp only [Option.map_some, Option.getD_some]
      omega
  · omega

theorem parentAt_snoc_of_lt {i : Nat} (h : i < files.length) :
    parentAt (files ++ [file]) i = parentAt files i := by
  unfold parentAt
  rw [List.getElem?_append_left h, List.take_append_of_le_length h.le]

theorem parentAt_snoc : parentAt (files ++ [file]) files.length = parentOf files file := by
  unfold parentAt
  rw [List.getElem?_concat_length, List.take_left' rfl]
  rfl

theorem parentAt_lt (i : Nat) : parentAt files i < i + 2 := by
  unfold parentAt fuseRootId
  cases hget : files[i]? with
  | none =>
    dsimp only [Option.map_none, Option.getD_none]
    omega
  | some f =>
    have hlt := parentOf_lt (files.take i) f
    rw [List.length_take] at hlt
    dsimp only [Option.map_some, Option.getD_some]
    omega

theorem one_le_parentAt (i : Nat) : 1 ≤ parentAt files i := by
  unfold parentAt
  cases files[i]? with
  | none => exact le_rfl
  | some f => exact one_le_parentOf _ f

theorem childrenOf_snoc (inode : Nat) : childrenOf (files ++ [file]) inode =
    childrenOf files inode ++ if parentOf files file = inode then [files.length + 2] else [] := by
  unfold childrenOf
  have hold : (List.range files.length).filter (parentAt (files ++ [file]) · = inode) =
      (List.range files.length).filter (parentAt files · = inode) := by
    apply List.filter_congr
    intro i hi
    rw [parentAt_snoc_of_lt files file (List.mem_range.mp hi)]
  rw [List.length_append, List.length_singleton, List.range_succ, List.filter_append, List.map_append,
    hold]
  congr 1
  by_cases h : parentOf files file = inode
  · rw [if_pos h, List.filter_cons_of_pos (by rw [parentAt_snoc]; exact decide_eq_true h)]
    rfl
  · rw [if_neg h, List.filter_cons_of_neg (by rw [parentAt_snoc]; simpa using h)]
    rfl

/-- The last node has no children, as the parent of a file comes before it. -/
theorem childrenOf_last : childrenOf files (files.length + 1) = [] := by
  unfold childrenOf
  rw [List.map_eq_nil_iff, List.filter_eq_nil_iff]
  intro i hi
  have hlt := parentAt_lt files i
  have hi := List.mem_range.mp hi
  simp only [decide_eq_true_eq]
  omega

end Snoc

/-! ### The loop -/

section Loop

variable {now : Nat → Nat} {files : List FileDescription} {file : FileDescription} {p p' : Progress}

open FuseNode

theorem children_snoc (node : FuseNode) (inode : Nat) :
    { node with children := childrenOf (files ++ [file]) inode } =
      if parentOf files file = inode then
        addChild (files.length + 2) { node with children := childrenOf files inode }
      else { node with children := childrenOf files inode } := by
  rw [childrenOf_snoc]
  by_cases hp : parentOf files file = inode
  · rw [if_pos hp, if_pos hp]
    rfl
  · rw [if_neg hp, if_neg hp, List.append_nil]

theorem nodeAt_snoc_of_le {i : Nat} (h : i ≤ files.length) :
    nodeAt now (files ++ [file]) i = (nodeAt now files i).map fun node =>
      if parentOf files file = i + 1 then addChild (files.length + 2) node else node := by
  cases i with
  | zero => exact congrArg some (children_snoc (newRoot (now fuseRootId)) fuseRootId)
  | succ i =>
    have hi : i < files.length := h
    simp only [nodeAt, List.getElem?_append_left hi, Option.map_map, parentAt_snoc_of_lt files file hi]
    congr 1
    funext f
    exact children_snoc { describe now i f with parent := some (parentAt files i) } (i + 2)

theorem nodeAt_snoc : nodeAt now (files ++ [file]) (files.length + 1) =
    some { describe now files.length file with parent := some (parentOf files file) } := by
  have hlast := childrenOf_last (files ++ [file])
  rw [List.length_append, List.length_singleton] at hlast
  simp only [nodeAt, List.getElem?_concat_length, Option.map_some, parentAt_snoc]
  rw [hlast]
  rfl

/-- The loop has taken `files`. -/
structure Grown (now : Nat → Nat) (files : List FileDescription) (p : Progress) : Prop where
  length : p.treeList.length = files.length + 1
  nodes : ∀ i ≤ files.length, p.treeList[i]? = nodeAt now files i
  directories : ∀ key, (p.subRootMap.lookup key).getD fuseRootId =
    ((lastDirectory key files).map (· + 2)).getD fuseRootId
  named : ∀ file ∈ files, (fileName file.name.toList).isSome

theorem grown_start (now : Nat → Nat) : Grown now [] (start now) := by
  constructor
  · rfl
  · intro i hi
    rw [Nat.le_zero.mp hi]
    rfl
  · intro key
    unfold start
    simp only [List.lookup_cons, List.lookup_nil]
    split
    · rfl
    · split
      · rfl
      · rfl
  · intro file hfile
    cases hfile

theorem Grown.parentInode_eq (h : Grown now files p) :
    parentInode p.subRootMap file.name.toList = parentOf files file := by
  unfold parentInode parentOf
  cases UnixPath.parent file.name.toList with
  | none => rfl
  | some parent => exact h.directories (components parent)

/-- What a round of the loop makes, told by the list. -/
def grow (now : Nat → Nat) (files : List FileDescription) (file : FileDescription) (p : Progress) :
    Progress where
  treeList := p.treeList.modify (parentOf files file - 1) (addChild (files.length + 2)) ++
    [{ describe now files.length file with parent := some (parentOf files file) }]
  subRootMap :=
    if file.kind = .directory then (components file.name.toList, files.length + 2) :: p.subRootMap
    else p.subRootMap

theorem Grown.addFile_ok (h : Grown now files p) (hok : addFile now p file = .ok p') :
    p' = grow now files file p ∧ (fileName file.name.toList).isSome := by
  have hparent : parentInode p.subRootMap file.name.toList = parentOf files file := h.parentInode_eq
  unfold addFile at hok
  dsimp only at hok
  cases hname : fileName file.name.toList with
  | none =>
    rw [hname] at hok
    cases hok
  | some baseName =>
    rw [hname, hparent, h.length] at hok
    unfold grow describe
    rw [hname]
    exact ⟨(Except.ok.inj hok).symm, rfl⟩

theorem Grown.grow_nodes (h : Grown now files p) {i : Nat} (hi : i ≤ files.length + 1) :
    (grow now files file p).treeList[i]? = nodeAt now (files ++ [file]) i := by
  have hone := one_le_parentOf files file
  have hlen : (p.treeList.modify (parentOf files file - 1)
      (addChild (files.length + 2))).length = files.length + 1 := by
    rw [List.length_modify, h.length]
  unfold grow
  dsimp only
  obtain hle | rfl := Nat.le_succ_iff.mp hi
  · rw [List.getElem?_append_left (by omega), List.getElem?_modify, h.nodes i hle,
      nodeAt_snoc_of_le hle]
    congr 1
    funext node
    by_cases hp : parentOf files file = i + 1
    · rw [if_pos hp, if_pos (by omega)]
    · rw [if_neg hp, if_neg (by omega)]
  · rw [nodeAt_snoc, List.getElem?_append_right hlen.le, hlen, Nat.sub_self]
    rfl

theorem Grown.grow_directories (h : Grown now files p) (key : List Component) :
    ((grow now files file p).subRootMap.lookup key).getD fuseRootId =
      ((lastDirectory key (files ++ [file])).map (· + 2)).getD fuseRootId := by
  rw [lastDirectory_append, grow]
  by_cases hkind : file.kind = .directory
  · rw [if_pos hkind, List.lookup_cons]
    by_cases hkey : components file.name.toList = key
    · rw [if_pos ⟨hkind, hkey⟩, hkey, beq_self_eq_true]
      rfl
    · rw [if_neg (fun h => hkey h.2), beq_false_of_ne (Ne.symm hkey)]
      exact h.directories key
  · rw [if_neg hkind, if_neg (fun h => hkind h.1)]
    exact h.directories key

theorem Grown.step (h : Grown now files p) (hok : addFile now p file = .ok p') :
    Grown now (files ++ [file]) p' := by
  obtain ⟨rfl, hname⟩ := h.addFile_ok hok
  have hsnoc : (files ++ [file]).length = files.length + 1 := List.length_append
  constructor
  · rw [grow, List.length_append, List.length_modify, h.length, hsnoc]
    rfl
  · intro i hi
    exact h.grow_nodes (hsnoc ▸ hi)
  · exact h.grow_directories
  · intro f hf
    obtain hf | hf := List.mem_append.mp hf
    · exact h.named f hf
    · rwa [List.mem_singleton.mp hf]

theorem Grown.run {more : List FileDescription} (h : Grown now files p)
    (hok : addFiles now more p = .ok p') : Grown now (files ++ more) p' := by
  induction more generalizing files p with
  | nil =>
    obtain rfl := Except.ok.inj hok
    rwa [List.append_nil]
  | cons file more ih =>
    rw [addFiles] at hok
    cases hstep : addFile now p file with
    | error e =>
      rw [hstep] at hok
      cases hok
    | ok q =>
      rw [hstep] at hok
      rw [List.append_cons]
      exact ih (h.step hstep) hok

theorem buildTree_grown {tree : List FuseNode} (hok : buildTree now files = .ok tree) :
    ∃ map, Grown now files ⟨tree, map⟩ := by
  unfold buildTree at hok
  cases hrun : addFiles now files (start now) with
  | error e =>
    rw [hrun] at hok
    cases hok
  | ok p =>
    rw [hrun] at hok
    obtain rfl := Except.ok.inj hok
    exact ⟨p.subRootMap, (grown_start now).run hrun⟩

end Loop

/-! ### The tree -/

/-- `b` is among the children of `a`. -/
def Edge (tree : List FuseNode) (a b : Nat) : Prop :=
  ∃ i node, a = i + 1 ∧ tree[i]? = some node ∧ b ∈ node.children

structure Describes (i : Nat) (file : FileDescription) (node : FuseNode) : Prop where
  index : node.index = i
  inode : node.attributes.inode = i + 2
  connId : node.connId = file.connId
  name : fileName file.name.toList = some node.name.toList
  kind : node.attributes.kind = file.kind
  size : node.attributes.size = file.size
  perm : node.attributes.perm = file.perm
  lastModified : node.attributes.lastModified = file.lastModified

/-- The node with inode `i + 1` stands at the place `i`, the root at the first. -/
structure IsTreeOf (files : List FileDescription) (tree : List FuseNode) : Prop where
  length : tree.length = files.length + 1
  described : ∀ i file, files[i]? = some file →
    ∃ node, tree[i + 1]? = some node ∧ Describes i file node
  parent_lt : ∀ i (node : FuseNode), tree[i + 1]? = some node → ∃ p, node.parent = some p ∧ 1 ≤ p ∧ p < i + 2
  child_once : ∀ i j (node other : FuseNode), tree[i + 1]? = some node → tree[j]? = some other →
    other.children.count (i + 2) = if node.parent = some (j + 1) then 1 else 0
  child_node : ∀ (j c : Nat) (other : FuseNode), tree[j]? = some other → c ∈ other.children →
    ∃ i, c = i + 2 ∧ i < files.length
  reached : ∀ i < tree.length, Relation.ReflTransGen (Edge tree) fuseRootId (i + 1)
  acyclic : ∀ a, ¬ Relation.TransGen (Edge tree) a a
  directory : ∀ i file parent, files[i]? = some file →
    UnixPath.parent file.name.toList = some parent →
    (∃ j dir, j < i ∧ files[j]? = some dir ∧ IsDirectory (components parent) dir) →
    ∃ j dir node, j < i ∧ files[j]? = some dir ∧ IsDirectory (components parent) dir ∧
      (∀ k other, j < k → k < i → files[k]? = some other → ¬ IsDirectory (components parent) other) ∧
      tree[i + 1]? = some node ∧ node.parent = some (j + 2)

/-- Where every step goes up, what has a step to it from below is reached from the least. -/
theorem reflTransGen_of_lt {r : Nat → Nat → Prop} {root n : Nat}
    (h : ∀ b, root < b → b ≤ n → ∃ a, root ≤ a ∧ a < b ∧ r a b) {b : Nat} (hroot : root ≤ b)
    (hb : b ≤ n) : Relation.ReflTransGen r root b := by
  induction b using Nat.strong_induction_on with
  | _ b ih =>
    obtain hlt | rfl := hroot.lt_or_eq
    · obtain ⟨a, hra, hab, hedge⟩ := h b hlt hb
      exact (ih a hab hra (by omega)).tail hedge
    · exact .refl

theorem not_transGen_self {r : Nat → Nat → Prop} (h : ∀ a b, r a b → a < b) (a : Nat) :
    ¬ Relation.TransGen r a a := by
  intro hloop
  have hlt : Relation.TransGen (· < ·) a a := Relation.TransGen.mono h a a hloop
  rw [Relation.transGen_eq_self] at hlt
  exact lt_irrefl a hlt

theorem mem_childrenOf {files : List FileDescription} {inode c : Nat} :
    c ∈ childrenOf files inode ↔ ∃ i, c = i + 2 ∧ i < files.length ∧ parentAt files i = inode := by
  unfold childrenOf
  simp only [List.mem_map, List.mem_filter, List.mem_range, decide_eq_true_eq]
  constructor
  · rintro ⟨i, ⟨hi, hp⟩, rfl⟩
    exact ⟨i, rfl, hi, hp⟩
  · rintro ⟨i, rfl, hi, hp⟩
    exact ⟨i, ⟨hi, hp⟩, rfl⟩

theorem count_childrenOf {files : List FileDescription} {i : Nat} (hi : i < files.length)
    (inode : Nat) : (childrenOf files inode).count (i + 2) =
      if parentAt files i = inode then 1 else 0 := by
  have hnodup : (childrenOf files inode).Nodup :=
    (List.nodup_range.filter _).map (add_left_injective 2)
  have hmem : i + 2 ∈ childrenOf files inode ↔ parentAt files i = inode := by
    rw [mem_childrenOf]
    constructor
    · rintro ⟨k, hk, -, hp⟩
      obtain rfl : i = k := by omega
      exact hp
    · intro hp
      exact ⟨i, rfl, hi, hp⟩
  rw [hnodup.count]
  exact if_congr hmem rfl rfl

section Tree

variable {now : Nat → Nat} {files : List FileDescription} {tree : List FuseNode} {i : Nat}

theorem nodeAt_children {node : FuseNode} (h : nodeAt now files i = some node) :
    node.children = childrenOf files (i + 1) := by
  cases i with
  | zero =>
    obtain rfl := Option.some.inj h
    rfl
  | succ i =>
    rw [nodeAt, Option.map_eq_some_iff] at h
    obtain ⟨file, -, rfl⟩ := h
    rfl

theorem Grown.node {map : SubRootMap} (h : Grown now files ⟨tree, map⟩) {node : FuseNode}
    (hget : tree[i]? = some node) : nodeAt now files i = some node := by
  have hlt : i < files.length + 1 := h.length ▸ (List.getElem?_eq_some_iff.mp hget).1
  rw [← h.nodes i (by omega)]
  exact hget

theorem Grown.file_node {map : SubRootMap} (h : Grown now files ⟨tree, map⟩) {node : FuseNode}
    (hget : tree[i + 1]? = some node) :
    i < files.length ∧ node.parent = some (parentAt files i) := by
  have hlt : i + 1 < files.length + 1 := h.length ▸ (List.getElem?_eq_some_iff.mp hget).1
  have hnode := h.node hget
  rw [nodeAt, Option.map_eq_some_iff] at hnode
  obtain ⟨file, -, rfl⟩ := hnode
  exact ⟨by omega, rfl⟩

/-- The children of a node are the files with it as their parent. -/
theorem Grown.edge_iff {map : SubRootMap} (h : Grown now files ⟨tree, map⟩) {a b : Nat} :
    Edge tree a b ↔ 1 ≤ a ∧ ∃ i, b = i + 2 ∧ i < files.length ∧ parentAt files i = a := by
  constructor
  · rintro ⟨i, node, rfl, hget, hchild⟩
    rw [nodeAt_children (h.node hget), mem_childrenOf] at hchild
    exact ⟨by omega, hchild⟩
  · rintro ⟨hone, i, rfl, hi, rfl⟩
    have hlt := parentAt_lt files i
    have hplace : parentAt files i - 1 < tree.length := by
      rw [h.length]
      omega
    refine ⟨parentAt files i - 1, tree[parentAt files i - 1], by omega, List.getElem?_eq_getElem hplace, ?_⟩
    rw [nodeAt_children (h.node (List.getElem?_eq_getElem hplace)), mem_childrenOf]
    exact ⟨i, rfl, hi, by omega⟩

theorem parentAt_directory {file : FileDescription} {parent : List Char} (hfile : files[i]? = some file)
    (hparent : UnixPath.parent file.name.toList = some parent)
    (hdir : ∃ j dir, j < i ∧ files[j]? = some dir ∧ IsDirectory (components parent) dir) :
    ∃ j dir, j < i ∧ files[j]? = some dir ∧ IsDirectory (components parent) dir ∧
      (∀ k other, j < k → k < i → files[k]? = some other → ¬ IsDirectory (components parent) other) ∧
      parentAt files i = j + 2 := by
  obtain ⟨j, dir, hj, hget, his⟩ := hdir
  have htake : ∀ {k}, k < i → (files.take i)[k]? = files[k]? := List.getElem?_take_of_lt
  cases hlast : lastDirectory (components parent) (files.take i) with
  | none =>
    have hmem : dir ∈ files.take i := List.mem_of_getElem? ((htake hj).trans hget)
    exact absurd his (lastDirectory_none hlast dir hmem)
  | some k =>
    obtain ⟨⟨last, hgetk, hisk⟩, hlater⟩ := lastDirectory_some hlast
    have hk : k < i := (List.getElem?_eq_some_iff.mp hgetk).1.trans_le (List.length_take_le i files)
    refine ⟨k, last, hk, (htake hk) ▸ hgetk, hisk, fun n other hkn hn hother => ?_, ?_⟩
    · exact hlater n other hkn ((htake hn).trans hother)
    · unfold parentAt parentOf
      rw [hfile, Option.map_some, Option.getD_some, hparent]
      dsimp only
      rw [hlast]
      rfl

end Tree

/-- Whatever list a tree is made of, it is a tree. -/
theorem built_tree (now : Nat → Nat) (files : List FileDescription) (tree : List FuseNode)
    (hok : FuseNode.buildTree now files = .ok tree) : IsTreeOf files tree := by
  obtain ⟨map, h⟩ := buildTree_grown hok
  have hnode : ∀ i file, files[i]? = some file → tree[i + 1]? = some
      { describe now i file with
        parent := some (parentAt files i)
        children := childrenOf files (i + 2) } := by
    intro i file hfile
    have hi := (List.getElem?_eq_some_iff.mp hfile).1
    rw [h.nodes (i + 1) hi, nodeAt, hfile]
    rfl
  constructor
  · exact h.length
  · intro i file hfile
    obtain ⟨base, hbase⟩ := Option.isSome_iff_exists.mp (h.named file (List.mem_of_getElem? hfile))
    refine ⟨_, hnode i file hfile, rfl, rfl, rfl, ?_, rfl, rfl, rfl, rfl⟩
    unfold describe
    rw [hbase]
    exact congrArg some String.toList_ofList.symm
  · intro i node hget
    exact ⟨_, (h.file_node hget).2, one_le_parentAt files i, parentAt_lt files i⟩
  · intro i j node other hget hother
    obtain ⟨hi, hparent⟩ := h.file_node hget
    rw [nodeAt_children (h.node hother), count_childrenOf hi, hparent]
    exact if_congr Option.some_inj.symm rfl rfl
  · intro j c other hother hc
    rw [nodeAt_children (h.node hother), mem_childrenOf] at hc
    obtain ⟨i, hci, hi, -⟩ := hc
    exact ⟨i, hci, hi⟩
  · intro i hi
    have hup : ∀ b, fuseRootId < b → b ≤ tree.length →
        ∃ a, fuseRootId ≤ a ∧ a < b ∧ Edge tree a b := by
      intro b hroot hb
      have hlen := h.length
      dsimp only [fuseRootId] at hlen hroot
      obtain ⟨k, rfl⟩ : ∃ k, b = k + 2 := ⟨b - 2, by omega⟩
      refine ⟨parentAt files k, one_le_parentAt files k, parentAt_lt files k, ?_⟩
      exact h.edge_iff.mpr ⟨one_le_parentAt files k, k, rfl, by omega, rfl⟩
    exact reflTransGen_of_lt hup (Nat.le_add_left 1 i) hi
  · apply not_transGen_self
    intro a b hedge
    obtain ⟨-, i, rfl, -, rfl⟩ := h.edge_iff.mp hedge
    exact parentAt_lt files i
  · intro i file parent hfile hparent hdir
    obtain ⟨j, dir, hj, hget, his, hlast, hp⟩ := parentAt_directory hfile hparent hdir
    exact ⟨j, dir, _, hj, hget, his, hlast, hnode i file hfile, congrArg some hp⟩

/-- A file before its directory, the directory twice, and a file behind them. -/
def pasted : List FileDescription :=
  [⟨1, "d/a", .file, 0, 3, permRw⟩, ⟨1, "d", .directory, 0, 0, permRwx⟩,
    ⟨1, "d/", .directory, 0, 0, permRwx⟩, ⟨1, "d/b", .file, 0, 5, permRw⟩]

/-- The first file is below the root, the other one in the directory that came last. -/
theorem built_tree_pasted : ∃ tree, FuseNode.buildTree (fun _ => 0) pasted = .ok tree ∧
    tree.map FuseNode.children = [[2, 3, 4], [], [], [5], []] ∧ IsTreeOf pasted tree := by
  have hok : (FuseNode.buildTree (fun _ => 0) pasted).toOption.map (·.map FuseNode.children) =
      some [[2, 3, 4], [], [], [5], []] := by
    decide +kernel
  cases hbuild : FuseNode.buildTree (fun _ => 0) pasted with
  | error e =>
    rw [hbuild] at hok
    cases hok
  | ok tree =>
    rw [hbuild] at hok
    exact ⟨tree, rfl, Option.some.inj hok, built_tree (fun _ => 0) pasted tree hbuild⟩

end RustDesk.Clipboard.Fuse
