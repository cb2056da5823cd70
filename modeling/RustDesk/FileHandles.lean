import RustDesk.BinarySearch
import RustDesk.FuseTree
import RustDesk.History
import Mathlib.Data.List.GetD

/-!
# File handles of the pasted files

A node keeps the handles by which it is open. They are numbered by one counter of the server, and
a handle is looked up by a binary search, so the vector has to be sorted. The methods of the server
are called one at a time, each under its lock; `loadFileList` puts new nodes in the place of all the
old ones and keeps the counter.
-/

namespace RustDesk.Clipboard.Fuse

open BinarySearch (binarySearch)

structure FileHandles where
  handlers : List Nat := []
  gc : Bool := false
  deriving DecidableEq, Repr

namespace FileHandles

def marked (h : FileHandles) : Bool := h.gc

/-- `none` is the panic of a marked one. -/
def addHandler (h : FileHandles) (fh : Nat) : Option FileHandles :=
  if h.marked then none else some { h with handlers := h.handlers ++ [fh] }

def haveHandler (h : FileHandles) (handler : Nat) : Bool :=
  match binarySearch h.handlers handler with
  | .ok _ => true
  | .error _ => false

/-- `none` is the error of an invalid handler. -/
def unregister (h : FileHandles) (handler : Nat) : Option FileHandles :=
  match binarySearch h.handlers handler with
  | .ok idx => some { h with handlers := h.handlers.eraseIdx idx }
  | .error _ => none

end FileHandles

/-- A node of the tree with its handles. -/
structure ServedNode where
  node : FuseNode
  fileHandlers : FileHandles := {}
  deriving DecidableEq, Repr

structure FuseServer where
  files : List ServedNode := []
  fileHandleCounter : Nat := 0
  deriving DecidableEq, Repr

inductive Errno
  | enoent
  | enotdir
  | enfile
  | ebusy
  | ebadf
  deriving DecidableEq, Repr

inductive Reply
  | opened (fh : Nat)
  | ok
  | error (e : Errno)
  | panic
  deriving DecidableEq, Repr

namespace FuseServer

variable (s : FuseServer)

/-- `files.get(ino as usize - 1)`; there is no node 0. -/
def entry (ino : Nat) : Option ServedNode := if ino = 0 then none else s.files[ino - 1]?

def setHandles (ino : Nat) (h : FileHandles) : FuseServer :=
  { s with files := s.files.modify (ino - 1) fun n => { n with fileHandlers := h } }

/-- The counter is a `u64` and wraps. -/
def allocFd : Nat × FuseServer :=
  (s.fileHandleCounter, { s with fileHandleCounter := (s.fileHandleCounter + 1) % 2 ^ 64 })

def loadFileList (now : Nat → Nat) (files : List FileDescription) : Except InvalidName FuseServer :=
  (FuseNode.buildTree now files).map fun tree => { s with files := tree.map fun node => { node } }

def init (now : Nat) : FuseServer :=
  if s.files.isEmpty then { s with files := s.files ++ [{ node := FuseNode.newRoot now }] } else s

/-- `open` and `opendir`: the kind of the node that can be opened, and the error for the others. -/
def openKind (kind : FileType) (wrong : Errno) (ino : Nat) : Reply × FuseServer :=
  match s.entry ino with
  | none => (.error .enoent, s)
  | some entry =>
    if entry.node.attributes.kind ≠ kind then (.error wrong, s)
    else if entry.fileHandlers.marked then (.error .ebusy, s)
    else
      let (fh, s) := s.allocFd
      match entry.fileHandlers.addHandler fh with
      | none => (.panic, s)
      | some h => (.opened fh, s.setHandles ino h)

def openFile (ino : Nat) : Reply × FuseServer := s.openKind .file .enfile ino

def opendir (ino : Nat) : Reply × FuseServer := s.openKind .directory .enotdir ino

def release (ino fh : Nat) : Reply × FuseServer :=
  match s.entry ino with
  | none => (.error .enoent, s)
  | some entry =>
    match entry.fileHandlers.unregister fh with
    | none => (.error .ebadf, s)
    | some h => (.ok, s.setHandles ino h)

/-- Unlike `release` it looks at the kind first, and drops the result of `unregister`. -/
def releasedir (ino fh : Nat) : Reply × FuseServer :=
  match s.entry ino with
  | none => (.error .enoent, s)
  | some entry =>
    if entry.node.attributes.kind ≠ .directory then (.error .enotdir, s)
    else if !entry.fileHandlers.haveHandler fh then (.error .ebadf, s)
    else
      match entry.fileHandlers.unregister fh with
      | none => (.ok, s)
      | some h => (.ok, s.setHandles ino h)

/-- Whether the node is open by this handle. -/
def haveHandler (ino fh : Nat) : Bool := (s.entry ino).any (·.fileHandlers.haveHandler fh)

end FuseServer

inductive Call
  | init (now : Nat)
  | loadFileList (now : Nat → Nat) (files : List FileDescription)
  | openFile (ino : Nat)
  | opendir (ino : Nat)
  | release (ino fh : Nat)
  | releasedir (ino fh : Nat)

/-- What happened to the handles, newest first. -/
inductive Entry
  | loaded
  | opened (ino fh : Nat)
  | released (ino fh : Nat)
  deriving DecidableEq, Repr

/-- `fh` was returned by an open of the node and was not released since. -/
def Outstanding (ino fh : Nat) : List Entry → Prop
  | [] => False
  | .loaded :: _ => False
  | .opened i f :: log => (i = ino ∧ f = fh) ∨ Outstanding ino fh log
  | .released i f :: log => ¬ (i = ino ∧ f = fh) ∧ Outstanding ino fh log

/-- The server and what it replied. -/
structure Served where
  server : FuseServer := {}
  log : List Entry := []

namespace Served

def opening (w : Served) (ino : Nat) : Reply × FuseServer → Served
  | (.opened fh, server) => ⟨server, .opened ino fh :: w.log⟩
  | (_, server) => ⟨server, w.log⟩

def releasing (w : Served) (ino fh : Nat) : Reply × FuseServer → Served
  | (.ok, server) => ⟨server, .released ino fh :: w.log⟩
  | (_, server) => ⟨server, w.log⟩

def step (w : Served) : Call → Served
  | .init now => { w with server := w.server.init now }
  | .loadFileList now files =>
    match w.server.loadFileList now files with
    | .error _ => w
    | .ok server => ⟨server, .loaded :: w.log⟩
  | .openFile ino => w.opening ino (w.server.openFile ino)
  | .opendir ino => w.opening ino (w.server.opendir ino)
  | .release ino fh => w.releasing ino fh (w.server.release ino fh)
  | .releasedir ino fh => w.releasing ino fh (w.server.releasedir ino fh)

end Served

def Call.isOpen : Call → Bool
  | .openFile _ => true
  | .opendir _ => true
  | _ => false

/-! ### One node -/

namespace FileHandles

variable {h : FileHandles} {fh : Nat}

theorem haveHandler_iff (hsorted : h.handlers.Pairwise (· < ·)) :
    h.haveHandler fh = true ↔ fh ∈ h.handlers := by
  by_cases hmem : fh ∈ h.handlers
  · obtain ⟨i, hi, -⟩ := BinarySearch.binarySearch_finds hsorted hmem
    simp only [haveHandler, hi, hmem]
  · obtain ⟨i, hi⟩ := BinarySearch.binarySearch_misses hmem
    simp only [haveHandler, hi, hmem, Bool.false_eq_true]

theorem unregister_of_mem (hsorted : h.handlers.Pairwise (· < ·)) (hmem : fh ∈ h.handlers) :
    h.unregister fh = some { h with handlers := h.handlers.erase fh } := by
  obtain ⟨i, hi, herase⟩ := BinarySearch.binarySearch_finds hsorted hmem
  simp only [unregister, hi, herase]

theorem unregister_of_notMem (hmem : fh ∉ h.handlers) : h.unregister fh = none := by
  obtain ⟨i, hi⟩ := BinarySearch.binarySearch_misses hmem
  simp only [unregister, hi]

end FileHandles

/-! ### One call -/

namespace FuseServer

variable {s : FuseServer} {ino i fh : Nat} {n : ServedNode} {h : FileHandles}

theorem entry_setHandles (hn : s.entry ino = some n) :
    (s.setHandles ino h).entry i = if i = ino then some { n with fileHandlers := h } else s.entry i := by
  have hino : ino ≠ 0 := by
    intro h0
    rw [entry, if_pos h0] at hn
    cases hn
  rw [entry, if_neg hino] at hn
  by_cases hi : i = ino
  · subst hi
    rw [entry, if_neg hino, if_pos rfl, setHandles, List.getElem?_modify_eq, hn]
    rfl
  · rw [if_neg hi]
    by_cases h0 : i = 0
    · rw [entry, entry, if_pos h0, if_pos h0]
    · have hne : ino - 1 ≠ i - 1 := by omega
      rw [entry, entry, if_neg h0, if_neg h0, setHandles]
      exact List.getElem?_modify_ne _ _ hne

theorem haveHandler_of_entry (hn : s.entry ino = some n) :
    s.haveHandler ino fh = n.fileHandlers.haveHandler fh := by
  rw [haveHandler, hn, Option.any_some]

/-- The handles of every node are in order and below the counter. -/
structure Ordered (s : FuseServer) : Prop where
  sorted : ∀ ino n, s.entry ino = some n → n.fileHandlers.handlers.Pairwise (· < ·)
  below : ∀ ino n, s.entry ino = some n → ∀ fh ∈ n.fileHandlers.handlers, fh < s.fileHandleCounter
  unmarked : ∀ ino n, s.entry ino = some n → n.fileHandlers.gc = false

/-- What an open can do: reply an error, or give the number of the counter to the node. -/
inductive Opens (s : FuseServer) (ino : Nat) : Reply × FuseServer → Prop
  | refused (e : Errno) : Opens s ino (.error e, s)
  | opened (n : ServedNode) (hn : s.entry ino = some n) :
    Opens s ino (.opened s.fileHandleCounter,
      s.allocFd.2.setHandles ino
        { n.fileHandlers with handlers := n.fileHandlers.handlers ++ [s.fileHandleCounter] })

theorem opens_openKind (hs : s.Ordered) (kind : FileType) (wrong : Errno) :
    Opens s ino (s.openKind kind wrong ino) := by
  cases hn : s.entry ino with
  | none =>
    simp only [openKind, hn]
    exact .refused _
  | some n =>
    have hgc : n.fileHandlers.marked = false := hs.unmarked ino n hn
    by_cases hkind : n.node.attributes.kind = kind
    · simp only [openKind, hn, hkind, ne_eq, not_true_eq_false, if_false, hgc, Bool.false_eq_true,
        FileHandles.addHandler]
      exact Opens.opened n hn
    · simp only [openKind, hn, ne_eq, hkind, not_false_eq_true, if_true]
      exact .refused _

/-- What a release can do: reply an error, or take this handle from the node. -/
inductive Releases (s : FuseServer) (ino fh : Nat) : Reply × FuseServer → Prop
  | refused (e : Errno) : Releases s ino fh (.error e, s)
  | released (n : ServedNode) (hn : s.entry ino = some n) (hmem : fh ∈ n.fileHandlers.handlers) :
    Releases s ino fh (.ok,
      s.setHandles ino { n.fileHandlers with handlers := n.fileHandlers.handlers.erase fh })

theorem release_of_mem (hs : s.Ordered) (hn : s.entry ino = some n)
    (hmem : fh ∈ n.fileHandlers.handlers) :
    s.release ino fh =
      (.ok, s.setHandles ino { n.fileHandlers with handlers := n.fileHandlers.handlers.erase fh }) := by
  rw [release, hn]
  simp only [FileHandles.unregister_of_mem (hs.sorted ino n hn) hmem]

theorem release_of_notMem (hn : s.entry ino = some n) (hmem : fh ∉ n.fileHandlers.handlers) :
    s.release ino fh = (.error .ebadf, s) := by
  rw [release, hn]
  simp only [FileHandles.unregister_of_notMem hmem]

theorem release_of_entry_none (hn : s.entry ino = none) : s.release ino fh = (.error .enoent, s) := by
  rw [release, hn]

theorem releases_release (hs : s.Ordered) : Releases s ino fh (s.release ino fh) := by
  cases hn : s.entry ino with
  | none =>
    rw [release_of_entry_none hn]
    exact .refused _
  | some n =>
    by_cases hmem : fh ∈ n.fileHandlers.handlers
    · rw [release_of_mem hs hn hmem]
      exact .released n hn hmem
    · rw [release_of_notMem hn hmem]
      exact .refused _

theorem releasedir_of_directory (hs : s.Ordered) (hn : s.entry ino = some n)
    (hkind : n.node.attributes.kind = .directory) : s.releasedir ino fh = s.release ino fh := by
  have hhave : n.fileHandlers.haveHandler fh = true ↔ fh ∈ n.fileHandlers.handlers :=
    FileHandles.haveHandler_iff (hs.sorted ino n hn)
  by_cases hmem : fh ∈ n.fileHandlers.handlers
  · rw [release_of_mem hs hn hmem, releasedir, hn]
    simp only [hkind, ne_eq, not_true_eq_false, if_false, hhave.mpr hmem, Bool.not_true,
      Bool.false_eq_true, FileHandles.unregister_of_mem (hs.sorted ino n hn) hmem]
  · have hno : n.fileHandlers.haveHandler fh = false := by
      rw [← Bool.not_eq_true]
      exact fun h => hmem (hhave.mp h)
    rw [release_of_notMem hn hmem, releasedir, hn]
    simp only [hkind, ne_eq, not_true_eq_false, if_false, hno, Bool.not_false, if_true]

theorem releases_releasedir (hs : s.Ordered) : Releases s ino fh (s.releasedir ino fh) := by
  cases hn : s.entry ino with
  | none =>
    rw [releasedir, hn]
    exact .refused _
  | some n =>
    by_cases hkind : n.node.attributes.kind = .directory
    · rw [releasedir_of_directory hs hn hkind]
      exact releases_release hs
    · rw [releasedir, hn]
      simp only [hkind, ne_eq, not_false_eq_true, if_true]
      exact .refused _

theorem Ordered.setHandles (hs : s.Ordered) (hn : s.entry ino = some n)
    (hsorted : h.handlers.Pairwise (· < ·)) (hbelow : ∀ fh ∈ h.handlers, fh < s.fileHandleCounter)
    (hgc : h.gc = false) : (s.setHandles ino h).Ordered := by
  -- a node is the one that was changed, or as it was
  have hcases : ∀ i m, (s.setHandles ino h).entry i = some m →
      m.fileHandlers = h ∨ s.entry i = some m := by
    intro i m hm
    rw [entry_setHandles hn] at hm
    by_cases hi : i = ino
    · rw [if_pos hi] at hm
      exact Or.inl (congrArg ServedNode.fileHandlers (Option.some.inj hm)).symm
    · rw [if_neg hi] at hm
      exact Or.inr hm
  constructor
  · intro i m hm
    rcases hcases i m hm with hm | hm
    · exact hm ▸ hsorted
    · exact hs.sorted i m hm
  · intro i m hm
    rcases hcases i m hm with hm | hm
    · exact hm ▸ hbelow
    · exact hs.below i m hm
  · intro i m hm
    rcases hcases i m hm with hm | hm
    · exact hm ▸ hgc
    · exact hs.unmarked i m hm

theorem Ordered.opens {r : Reply × FuseServer} (hs : s.Ordered) (hr : Opens s ino r)
    (hcounter : s.fileHandleCounter + 1 < 2 ^ 64) : r.2.Ordered := by
  cases hr with
  | refused e => exact hs
  | opened n hn =>
    have hnext : s.allocFd.2.fileHandleCounter = s.fileHandleCounter + 1 := Nat.mod_eq_of_lt hcounter
    have halloc : s.allocFd.2.Ordered := by
      refine ⟨hs.sorted, fun i m hm fh hfh => ?_, hs.unmarked⟩
      have hlt := hs.below i m hm fh hfh
      omega
    have hbelow := hs.below ino n hn
    apply halloc.setHandles hn
    · rw [List.pairwise_append]
      refine ⟨hs.sorted ino n hn, List.pairwise_singleton _ _, fun a ha b hb => ?_⟩
      rw [List.mem_singleton.mp hb]
      exact hbelow a ha
    · intro fh hfh
      rcases List.mem_append.mp hfh with hfh | hfh
      · have hlt := hbelow fh hfh
        omega
      · rw [List.mem_singleton.mp hfh]
        omega
    · exact hs.unmarked ino n hn

theorem Ordered.releases {r : Reply × FuseServer} (hs : s.Ordered) (hr : Releases s ino fh r) :
    r.2.Ordered := by
  cases hr with
  | refused e => exact hs
  | released n hn hmem =>
    apply hs.setHandles hn
    · exact (hs.sorted ino n hn).sublist List.erase_sublist
    · exact fun f hf => hs.below ino n hn f (List.mem_of_mem_erase hf)
    · exact hs.unmarked ino n hn

/-- A server whose nodes have no handles yet. -/
theorem ordered_of_new (hnew : ∀ n ∈ s.files, n.fileHandlers = {}) : s.Ordered := by
  have hentry : ∀ ino n, s.entry ino = some n → n.fileHandlers = {} := by
    intro ino n hn
    by_cases h0 : ino = 0
    · rw [entry, if_pos h0] at hn
      cases hn
    · rw [entry, if_neg h0] at hn
      exact hnew n (List.mem_of_getElem? hn)
  constructor
  · intro ino n hn
    rw [hentry ino n hn]
    exact List.Pairwise.nil
  · intro ino n hn
    rw [hentry ino n hn]
    exact fun fh hfh => absurd hfh List.not_mem_nil
  · intro ino n hn
    rw [hentry ino n hn]

/-- `fh` is among the handles of the node. -/
def Held (s : FuseServer) (ino fh : Nat) : Prop :=
  ∃ n, s.entry ino = some n ∧ fh ∈ n.fileHandlers.handlers

theorem haveHandler_iff_held (hs : s.Ordered) : s.haveHandler ino fh = true ↔ s.Held ino fh := by
  cases hn : s.entry ino with
  | none => simp [haveHandler, Held, hn]
  | some n =>
    rw [haveHandler_of_entry hn, FileHandles.haveHandler_iff (hs.sorted ino n hn)]
    simp [Held, hn]

theorem not_held_of_new (hnew : ∀ n ∈ s.files, n.fileHandlers = {}) : ¬ s.Held ino fh := by
  rintro ⟨n, hn, hmem⟩
  by_cases h0 : ino = 0
  · rw [entry, if_pos h0] at hn
    cases hn
  · rw [entry, if_neg h0] at hn
    rw [hnew n (List.mem_of_getElem? hn)] at hmem
    exact absurd hmem List.not_mem_nil

theorem held_setHandles {f : Nat} (hn : s.entry ino = some n) :
    (s.setHandles ino h).Held i f ↔ if i = ino then f ∈ h.handlers else s.Held i f := by
  by_cases hi : i = ino
  · simp [Held, entry_setHandles hn, hi]
  · simp [Held, entry_setHandles hn, hi]

theorem held_opened {f : Nat} (hn : s.entry ino = some n) :
    (s.allocFd.2.setHandles ino
      { n.fileHandlers with handlers := n.fileHandlers.handlers ++ [fh] }).Held i f ↔
      (ino = i ∧ fh = f) ∨ s.Held i f := by
  have hn' : s.allocFd.2.entry ino = some n := hn
  rw [held_setHandles hn']
  by_cases hi : i = ino
  · subst hi
    simp [Held, hn, or_comm, eq_comm]
  · have hne : ¬ ino = i := fun h => hi h.symm
    rw [if_neg hi]
    simp only [hne, false_and, false_or]
    exact Iff.rfl

theorem held_released {f : Nat} (hs : s.Ordered) (hn : s.entry ino = some n) :
    (s.setHandles ino { n.fileHandlers with handlers := n.fileHandlers.handlers.erase fh }).Held i f ↔
      ¬ (ino = i ∧ fh = f) ∧ s.Held i f := by
  rw [held_setHandles hn]
  by_cases hi : i = ino
  · subst hi
    have hnodup : n.fileHandlers.handlers.Nodup := (hs.sorted i n hn).imp fun h => ne_of_lt h
    simp [Held, hn, hnodup.mem_erase_iff, eq_comm]
  · have hne : ¬ ino = i := fun h => hi h.symm
    simp [hi, hne]

end FuseServer

/-! ### All calls -/

namespace Served

variable {w : Served} {ino fh : Nat} {r : Reply × FuseServer}

/-- The handles are in order, and they are the ones that were returned and not released. -/
structure Kept (w : Served) : Prop where
  ordered : w.server.Ordered
  held : ∀ ino fh, w.server.Held ino fh ↔ Outstanding ino fh w.log

theorem Kept.opening (hw : w.Kept) (hr : FuseServer.Opens w.server ino r)
    (hcounter : w.server.fileHandleCounter + 1 < 2 ^ 64) : (w.opening ino r).Kept := by
  have hordered := hw.ordered.opens hr hcounter
  cases hr with
  | refused e => exact hw
  | opened n hn =>
    refine ⟨hordered, fun i f => ?_⟩
    exact (FuseServer.held_opened hn).trans (or_congr_right (hw.held i f))

theorem Kept.releasing (hw : w.Kept) (hr : FuseServer.Releases w.server ino fh r) :
    (w.releasing ino fh r).Kept := by
  have hordered := hw.ordered.releases hr
  cases hr with
  | refused e => exact hw
  | released n hn hmem =>
    refine ⟨hordered, fun i f => ?_⟩
    exact (FuseServer.held_released hw.ordered hn).trans (and_congr_right fun _ => hw.held i f)

theorem Kept.init (hw : w.Kept) (now : Nat) : (w.step (.init now)).Kept := by
  by_cases hempty : w.server.files.isEmpty
  · have hfiles : w.server.files = [] := List.isEmpty_iff.mp hempty
    -- there was no node before, so nothing was held
    have hnone : ∀ i f, ¬ w.server.Held i f := fun i f =>
      FuseServer.not_held_of_new (by rw [hfiles]; simp)
    have hnew : ∀ n ∈ (w.server.init now).files, n.fileHandlers = {} := by
      simp [FuseServer.init, hfiles]
    refine ⟨FuseServer.ordered_of_new hnew, fun i f => ?_⟩
    exact iff_of_false (FuseServer.not_held_of_new hnew) fun h => hnone i f ((hw.held i f).mpr h)
  · have hsame : w.server.init now = w.server := by
      rw [FuseServer.init, if_neg hempty]
    simpa only [step, hsame] using hw

theorem Kept.loadFileList (hw : w.Kept) (now : Nat → Nat) (files : List FileDescription) :
    (w.step (.loadFileList now files)).Kept := by
  simp only [step]
  cases hload : w.server.loadFileList now files with
  | error e => exact hw
  | ok server =>
    have hnew : ∀ n ∈ server.files, n.fileHandlers = {} := by
      rw [FuseServer.loadFileList] at hload
      cases htree : FuseNode.buildTree now files with
      | error e =>
        rw [htree] at hload
        cases hload
      | ok tree =>
        rw [htree] at hload
        cases hload
        simp
    exact ⟨FuseServer.ordered_of_new hnew, fun i f =>
      iff_of_false (FuseServer.not_held_of_new hnew) fun h => h⟩

theorem Kept.step {call : Call} (hw : w.Kept)
    (hcounter : call.isOpen → w.server.fileHandleCounter + 1 < 2 ^ 64) : (w.step call).Kept := by
  cases call with
  | init now => exact hw.init now
  | loadFileList now files => exact hw.loadFileList now files
  | openFile ino => exact hw.opening (FuseServer.opens_openKind hw.ordered _ _) (hcounter rfl)
  | opendir ino => exact hw.opening (FuseServer.opens_openKind hw.ordered _ _) (hcounter rfl)
  | release ino fh => exact hw.releasing (FuseServer.releases_release hw.ordered)
  | releasedir ino fh => exact hw.releasing (FuseServer.releases_releasedir hw.ordered)

theorem counter_opening (hr : FuseServer.Opens w.server ino r) :
    (w.opening ino r).server.fileHandleCounter ≤ w.server.fileHandleCounter + 1 := by
  cases hr with
  | refused e => exact Nat.le_succ _
  | opened n hn => exact Nat.mod_le _ _

theorem counter_releasing (hr : FuseServer.Releases w.server ino fh r) :
    (w.releasing ino fh r).server.fileHandleCounter = w.server.fileHandleCounter := by
  cases hr with
  | refused e => rfl
  | released n hn hmem => rfl

theorem counter_step (hw : w.Kept) (call : Call) :
    (w.step call).server.fileHandleCounter ≤
      w.server.fileHandleCounter + [call].countP Call.isOpen := by
  cases call with
  | openFile ino => exact counter_opening (FuseServer.opens_openKind hw.ordered _ _)
  | opendir ino => exact counter_opening (FuseServer.opens_openKind hw.ordered _ _)
  | release ino fh => exact (counter_releasing (FuseServer.releases_release hw.ordered)).le
  | releasedir ino fh => exact (counter_releasing (FuseServer.releases_releasedir hw.ordered)).le
  | init now =>
    simp only [Served.step, FuseServer.init]
    split <;> exact Nat.le_refl _
  | loadFileList now files =>
    simp only [Served.step, FuseServer.loadFileList]
    cases FuseNode.buildTree now files with
    | error e => exact Nat.le_refl _
    | ok tree => exact Nat.le_refl _

theorem throughout_kept {calls : List Call} (hw : w.Kept)
    (hfew : w.server.fileHandleCounter + calls.countP Call.isOpen < 2 ^ 64) :
    History.Throughout Served.step Kept w calls := by
  induction calls generalizing w with
  | nil => exact hw
  | cons call calls ih =>
    have hsplit : (call :: calls).countP Call.isOpen =
        [call].countP Call.isOpen + calls.countP Call.isOpen := by
      rw [← List.countP_append, List.singleton_append]
    have hnext : (w.step call).Kept := by
      apply hw.step
      intro hopen
      have hone : [call].countP Call.isOpen = 1 := List.countP_cons_of_pos hopen
      omega
    have hcounter := counter_step hw call
    exact ⟨hw, ih hnext (by omega)⟩

/-- A handle that the node is open by is taken from it and nothing else changes; for any other
handle the server says so and stays as it is. -/
def ReleasesExactly (s : FuseServer) (ino fh : Nat) : Prop :=
  if s.haveHandler ino fh then
    (s.release ino fh).1 = .ok ∧
      ∀ i f, (s.release ino fh).2.haveHandler i f = true ↔
        ¬ (ino = i ∧ fh = f) ∧ s.haveHandler i f = true
  else ∃ e, s.release ino fh = (.error e, s)

theorem Kept.releasesExactly (hw : w.Kept) (ino fh : Nat) : ReleasesExactly w.server ino fh := by
  have hhave : w.server.haveHandler ino fh = true ↔ w.server.Held ino fh :=
    FuseServer.haveHandler_iff_held hw.ordered
  by_cases hheld : w.server.Held ino fh
  · have hafter : (w.server.release ino fh).2.Ordered :=
      hw.ordered.releases (FuseServer.releases_release hw.ordered)
    obtain ⟨n, hn, hmem⟩ := hheld
    rw [FuseServer.release_of_mem hw.ordered hn hmem] at hafter
    rw [ReleasesExactly, if_pos (hhave.mpr ⟨n, hn, hmem⟩), FuseServer.release_of_mem hw.ordered hn hmem]
    refine ⟨rfl, fun i f => ?_⟩
    rw [FuseServer.haveHandler_iff_held hafter, FuseServer.held_released hw.ordered hn,
      FuseServer.haveHandler_iff_held hw.ordered]
  · rw [ReleasesExactly, if_neg fun h => hheld (hhave.mp h)]
    cases hn : w.server.entry ino with
    | none => exact ⟨_, FuseServer.release_of_entry_none hn⟩
    | some n => exact ⟨_, FuseServer.release_of_notMem hn fun hmem => hheld ⟨n, hn, hmem⟩⟩

/-- With fewer than 2^64 opens: the handles of a node stay in order, it is open by exactly the
handles that were returned and not released, and a release takes just its handle. -/
theorem handles_of_calls (calls : List Call) (hfew : calls.countP Call.isOpen < 2 ^ 64) :
    History.Throughout Served.step
      (fun w =>
        (∀ ino n, w.server.entry ino = some n → n.fileHandlers.handlers.Pairwise (· < ·)) ∧
        (∀ ino fh, w.server.haveHandler ino fh = true ↔ Outstanding ino fh w.log) ∧
        ∀ ino fh, ReleasesExactly w.server ino fh)
      {} calls := by
  have hstart : Kept {} :=
    ⟨FuseServer.ordered_of_new fun n hn => absurd hn List.not_mem_nil,
      fun ino fh => iff_of_false (FuseServer.not_held_of_new fun n hn => absurd hn List.not_mem_nil)
        fun h => h⟩
  have hzero : ({} : Served).server.fileHandleCounter = 0 := rfl
  have hkept : History.Throughout Served.step Kept {} calls := throughout_kept hstart (by omega)
  exact History.throughout_imp (fun w hw => ⟨hw.ordered.sorted,
    fun ino fh => (FuseServer.haveHandler_iff_held hw.ordered).trans (hw.held ino fh),
    hw.releasesExactly⟩) hkept

/-- The root is opened three times and closed in another order. -/
def rootCalls : List Call :=
  [.init 0, .opendir 1, .opendir 1, .opendir 1, .releasedir 1 1, .openFile 1, .opendir 1,
    .releasedir 1 0, .release 1 7]

theorem handles_of_rootCalls :
    (History.run Served.step {} rootCalls).server.haveHandler 1 2 = true ↔
      Outstanding 1 2 (History.run Served.step {} rootCalls).log :=
  (History.throughout_last (handles_of_calls rootCalls (by decide))).2.1 1 2

end Served

end RustDesk.Clipboard.Fuse
