import RustDesk.RecorderFiles
import RustDesk.History

/-!
# The upload of recordings

The recorder grows a file, writes again within its first bytes, and finishes or removes it; the uploader is
told of this through a queue, and reads the file on its own time. A part begins where the length was
when the last part was sent, and the first bytes are sent again at the end.

Files are numbered as the recorder makes them. A file that was opened can be read after it was removed. Reading
to the end takes as many steps as there are calls of the system, and the recorder can write between them. What
the server has of a file is made of the parts at their offsets. `isOpen` says whether the uploader is
between the beginning of a file and its end; `tailed` and `ended` are the files whose `WriteTail` and
`RemoveFile` it has handled.
-/

namespace RustDesk.Recording

open History (run Guarded Throughout)

abbrev Bytes := List UInt8

def maxHeaderLen : Nat := 1024

def shouldSendSize : Nat := 1024 * 1024

/-- The bytes with others in their place from an offset on. -/
def writeAt (content : Bytes) (offset : Nat) (data : Bytes) : Bytes :=
  (content ++ List.replicate (offset - content.length) 0).take offset ++ data ++ content.drop (offset + data.length)

structure DiskFile where
  content : Bytes := []
  isPresent : Bool := false
  deriving DecidableEq, Repr

structure ServerFile where
  content : Bytes := []
  isTold : Bool := false
  isRemoved : Bool := false
  deriving DecidableEq, Repr

inductive Request
  | new (file : Nat)
  | part (file offset : Nat) (data : Bytes)
  | tail (file : Nat) (data : Bytes)
  | remove (file : Nat)
  deriving DecidableEq, Repr

def Request.apply (server : Nat → ServerFile) : Request → Nat → ServerFile
  | .new file => Function.update server file { isTold := true }
  | .part file offset data =>
    Function.update server file { server file with content := writeAt (server file).content offset data }
  | .tail file data => Function.update server file { server file with content := writeAt (server file).content 0 data }
  | .remove file => Function.update server file { server file with isRemoved := true }

/-- Where the recorder is with its last file. -/
inductive Progress
  | idle
  | created
  | recording
  | deleted
  deriving DecidableEq, Repr

/-- Where the uploader is with a state that it handles. -/
inductive Handling
  | idle
  | opening (flush : Bool)
  | measuring (flush : Bool)
  | reading (flush : Bool) (len : Nat) (buf : Bytes)
  | tail
  deriving DecidableEq, Repr

structure World where
  recorder : Progress := .idle
  files : Nat := 0
  disk : Nat → DiskFile := fun _ => {}
  queue : List RecordState := []
  filepath : Nat := 0
  uploadSize : Nat := 0
  running : Bool := false
  handling : Handling := .idle
  server : Nat → ServerFile := fun _ => {}
  told : Nat := 0
  isOpen : Bool := false
  tailed : List Nat := []
  ended : List Nat := []

inductive Step
  | create
  | append (data : Bytes)
  | rewrite (pos : Nat) (data : Bytes)
  | newFile
  | newFrame
  | finish
  | delete
  | removeFile
  /-- The next state is taken from the queue; `isDue` is whether a second has passed since `last_send`. -/
  | recv (isDue : Bool)
  | openFile
  | metadata
  | read (n : Nat)
  | sendTail
  deriving DecidableEq, Repr

namespace World

variable (w : World)

/-! ### The recorder -/

def last : Nat := w.files - 1

def putLast (f : DiskFile) : World := { w with disk := Function.update w.disk w.last f }

def send (state : RecordState) : World := { w with queue := w.queue ++ [state] }

def create : World :=
  { w with recorder := .created, files := w.files + 1, disk := Function.update w.disk w.files { isPresent := true } }

def append (data : Bytes) : World := w.putLast { w.disk w.last with content := (w.disk w.last).content ++ data }

/-- Only within the first bytes, and not beyond the end. -/
def rewrite (pos : Nat) (data : Bytes) : World :=
  let content := (w.disk w.last).content
  if pos + data.length ≤ min maxHeaderLen content.length then
    w.putLast { w.disk w.last with content := content.take pos ++ data ++ content.drop (pos + data.length) }
  else w

/-! ### The uploader -/

def request (r : Request) : World := { w with server := r.apply w.server }

def frameDone (flush : Bool) : World := { w with handling := if flush then .tail else .idle }

def stop (flush : Bool) : World :=
  { w with running := false, handling := .idle, tailed := if flush then w.filepath :: w.tailed else w.tailed }

def handleNewFile (filepath : Nat) : World :=
  { w with filepath, uploadSize := 0, running := true, told := w.told + 1, isOpen := true }.request (.new filepath)

def recv (isDue : Bool) : World :=
  match w.queue with
  | [] => w
  | .newFile filepath :: queue => { w with queue }.handleNewFile filepath
  | .newFrame :: queue =>
    if w.running && isDue then { w with queue, handling := .opening false } else { w with queue }
  | .writeTail :: queue =>
    if w.running then { w with queue, isOpen := false, handling := .opening true }
    else { w with queue, isOpen := false, tailed := w.filepath :: w.tailed }
  | .removeFile :: queue =>
    let w := { w with queue, isOpen := false, ended := w.filepath :: w.ended }
    if w.running then w.request (.remove w.filepath) else w

/-- `File::open`, in `handle_frame`. -/
def openFile (flush : Bool) : World :=
  if (w.disk w.filepath).isPresent then { w with handling := .measuring flush } else w.stop flush

def metadata (flush : Bool) : World :=
  let len := (w.disk w.filepath).content.length
  if len ≤ w.uploadSize then w.frameDone flush
  else if !flush && len - w.uploadSize < shouldSendSize then w.frameDone flush
  else { w with handling := .reading flush len [] }

/-- A call of `read` in `read_to_end`, for up to `n + 1` bytes. At the end of the file the part is sent. -/
def read (flush : Bool) (len : Nat) (buf : Bytes) (n : Nat) : World :=
  match ((w.disk w.filepath).content.drop (w.uploadSize + buf.length)).take (n + 1) with
  | [] =>
    { w.request (.part w.filepath w.uploadSize buf) with uploadSize := len }.frameDone flush
  | chunk => { w with handling := .reading flush len (buf ++ chunk) }

/-- The second half of `handle_tail`. -/
def sendTail : World :=
  if (w.disk w.filepath).isPresent then
    { w.request (.tail w.filepath ((w.disk w.filepath).content.take maxHeaderLen)) with
      handling := .idle, tailed := w.filepath :: w.tailed }
  else w.stop true

def step : Step → World
  | .create => if w.recorder = .idle then w.create else w
  | .append data => if w.recorder = .created ∨ w.recorder = .recording then w.append data else w
  | .rewrite pos data => if w.recorder = .created ∨ w.recorder = .recording then w.rewrite pos data else w
  | .newFile => if w.recorder = .created then { w with recorder := .recording }.send (.newFile w.last) else w
  | .newFrame => if w.recorder = .recording then w.send .newFrame else w
  | .finish => if w.recorder = .recording then { w with recorder := .idle }.send .writeTail else w
  | .delete =>
    if w.recorder = .recording then
      { w with recorder := .deleted }.putLast { w.disk w.last with isPresent := false }
    else w
  | .removeFile => if w.recorder = .deleted then { w with recorder := .idle }.send .removeFile else w
  | .recv isDue => if w.handling = .idle then w.recv isDue else w
  | .openFile =>
    match w.handling with
    | .opening flush => w.openFile flush
    | _ => w
  | .metadata =>
    match w.handling with
    | .measuring flush => w.metadata flush
    | _ => w
  | .read n =>
    match w.handling with
    | .reading flush len buf => w.read flush len buf n
    | _ => w
  | .sendTail => if w.handling = .tail then w.sendTail else w

/-- After its `WriteTail` the server has exactly the file. -/
def Delivered : Prop := ∀ n ∈ w.tailed, (w.server n).content = (w.disk n).content

/-- After its `RemoveFile` the server has been told to remove the file, if it was told about it. -/
def Removed : Prop := ∀ n ∈ w.ended, (w.server n).isTold = true → (w.server n).isRemoved = true

/-- The file of a frame is still there when the uploader opens it. -/
def Present : Step → Prop
  | .openFile => w.handling = .opening false → (w.disk w.filepath).isPresent = true
  | _ => True

instance : (e : Step) → Decidable (w.Present e)
  | .openFile => inferInstanceAs (Decidable (_ → _))
  | .create | .append _ | .rewrite _ _ | .newFile | .newFrame | .finish | .delete | .removeFile | .recv _ | .metadata
  | .read _ | .sendTail => .isTrue trivial

end World

/-! ### Contents that agree beyond the first bytes -/

/-- The second is not shorter, and has the same bytes but for the first ones. -/
def Agrees (v u : Bytes) : Prop := v.length ≤ u.length ∧ ∀ i, maxHeaderLen ≤ i → i < v.length → v[i]? = u[i]?

variable {v c x : Bytes} {n : Nat}

theorem agrees_refl (c : Bytes) : Agrees c c := ⟨Nat.le_refl _, fun _ _ _ => rfl⟩

theorem agrees_nil (c : Bytes) : Agrees [] c := ⟨Nat.zero_le _, fun i _ hi => absurd hi (Nat.not_lt_zero i)⟩

theorem Agrees.trans (h : Agrees x v) (h' : Agrees v c) : Agrees x c := by
  refine ⟨Nat.le_trans h.1 h'.1, fun i hi hlt => ?_⟩
  rw [h.2 i hi hlt, h'.2 i hi (Nat.lt_of_lt_of_le hlt h.1)]

theorem agrees_append (c data : Bytes) : Agrees c (c ++ data) := by
  refine ⟨by simp, fun i _ hi => ?_⟩
  rw [List.getElem?_append_left hi]

theorem agrees_take (n : Nat) (c : Bytes) : Agrees (c.take n) c := by
  refine ⟨List.length_take_le' n c, fun i _ hi => ?_⟩
  rw [List.length_take] at hi
  rw [List.getElem?_take_of_lt (by omega)]

theorem agrees_rewrite {pos : Nat} {data : Bytes} (h : pos + data.length ≤ min maxHeaderLen c.length) :
    Agrees c (c.take pos ++ data ++ c.drop (pos + data.length)) := by
  have hlen : (c.take pos ++ data).length = pos + data.length := by
    rw [List.length_append, List.length_take]
    omega
  refine ⟨?_, fun i hi hlt => ?_⟩
  · rw [List.length_append, hlen, List.length_drop]
    omega
  · rw [List.getElem?_append_right (by omega), hlen, List.getElem?_drop]
    congr 1
    omega

theorem agrees_read (h : Agrees x c) (n : Nat) : Agrees (x ++ (c.drop x.length).take n) c := by
  have hle := h.1
  refine ⟨?_, fun i hi hlt => ?_⟩
  · rw [List.length_append, List.length_take, List.length_drop]
    omega
  · rw [List.length_append, List.length_take, List.length_drop] at hlt
    by_cases hx : i < x.length
    · rw [List.getElem?_append_left hx, h.2 i hi hx]
    · rw [List.getElem?_append_right (by omega), List.getElem?_take_of_lt (by omega), List.getElem?_drop]
      congr 1
      omega

theorem writeAt_part {offset : Nat} {buf : Bytes} (hoffset : offset ≤ v.length)
    (hend : v.length ≤ offset + buf.length) : writeAt v offset buf = v.take offset ++ buf := by
  rw [writeAt, Nat.sub_eq_zero_of_le hoffset, List.replicate_zero, List.append_nil, List.drop_eq_nil_of_le hend,
    List.append_nil]

/-- With the first bytes sent again, contents of the same length that agree are the same. -/
theorem writeAt_tail (h : Agrees v c) (hlen : v.length = c.length) : writeAt v 0 (c.take maxHeaderLen) = c := by
  rw [writeAt, List.take_zero, List.nil_append, Nat.zero_add]
  apply List.ext_getElem?
  intro i
  by_cases hi : i < (c.take maxHeaderLen).length
  · rw [List.getElem?_append_left hi]
    rw [List.length_take] at hi
    exact List.getElem?_take_of_lt (by omega)
  · rw [List.getElem?_append_right (by omega), List.getElem?_drop, Nat.add_sub_cancel' (by omega)]
    rw [List.length_take] at hi
    by_cases hv : i < v.length
    · exact h.2 i (by omega) hv
    · rw [List.getElem?_eq_none (by omega), List.getElem?_eq_none (by omega)]

/-! ### The states in the queue -/

/-- From a number of files and whether the last is open, the states lead to others; a file that is kept is
finished. -/
inductive Follows (kept : Nat → Prop) : Nat → Bool → List RecordState → Nat → Bool → Prop
  | nil (k : Nat) (o : Bool) : Follows kept k o [] k o
  | newFile {k k' : Nat} {o' : Bool} {q : List RecordState} (h : Follows kept (k + 1) true q k' o') :
      Follows kept k false (.newFile k :: q) k' o'
  | newFrame {k k' : Nat} {o' : Bool} {q : List RecordState} (h : Follows kept k true q k' o') :
      Follows kept k true (.newFrame :: q) k' o'
  | writeTail {k k' : Nat} {o' : Bool} {q : List RecordState} (hkept : kept (k - 1))
      (h : Follows kept k false q k' o') : Follows kept k true (.writeTail :: q) k' o'
  | removeFile {k k' : Nat} {o' : Bool} {q : List RecordState} (h : Follows kept k false q k' o') :
      Follows kept k true (.removeFile :: q) k' o'

namespace Follows

variable {kept kept' : Nat → Prop} {k k' k'' : Nat} {o o' o'' : Bool} {q : List RecordState}

theorem mono (hkept : ∀ n, kept n → kept' n) (h : Follows kept k o q k' o') : Follows kept' k o q k' o' := by
  induction h with
  | nil k o => exact .nil k o
  | newFile _ ih => exact .newFile ih
  | newFrame _ ih => exact .newFrame ih
  | writeTail hk _ ih => exact .writeTail (hkept _ hk) ih
  | removeFile _ ih => exact .removeFile ih

theorem append {q' : List RecordState} (h : Follows kept k o q k' o') (h' : Follows kept k' o' q' k'' o'') :
    Follows kept k o (q ++ q') k'' o'' := by
  induction h with
  | nil k o => exact h'
  | newFile _ ih => exact .newFile (ih h')
  | newFrame _ ih => exact .newFrame (ih h')
  | writeTail hk _ ih => exact .writeTail hk (ih h')
  | removeFile _ ih => exact .removeFile (ih h')

theorem le (h : Follows kept k o q k' o') : k ≤ k' := by
  induction h with
  | nil k o => exact Nat.le_refl k
  | newFile _ ih => exact Nat.le_of_succ_le ih
  | newFrame _ ih => exact ih
  | writeTail _ _ ih => exact ih
  | removeFile _ ih => exact ih

theorem of_newFile {n : Nat} (h : Follows kept k o (.newFile n :: q) k' o') :
    o = false ∧ n = k ∧ Follows kept (k + 1) true q k' o' := by
  cases h with
  | newFile h => exact ⟨rfl, rfl, h⟩

theorem of_newFrame (h : Follows kept k o (.newFrame :: q) k' o') : o = true ∧ Follows kept k true q k' o' := by
  cases h with
  | newFrame h => exact ⟨rfl, h⟩

theorem of_writeTail (h : Follows kept k o (.writeTail :: q) k' o') :
    o = true ∧ kept (k - 1) ∧ Follows kept k false q k' o' := by
  cases h with
  | writeTail hk h => exact ⟨rfl, hk, h⟩

theorem of_removeFile (h : Follows kept k o (.removeFile :: q) k' o') :
    o = true ∧ Follows kept k false q k' o' := by
  cases h with
  | removeFile h => exact ⟨rfl, h⟩

end Follows

/-! ### Along a run -/

namespace World

variable {w : World}

def Kept (w : World) (n : Nat) : Prop :=
  (w.disk n).isPresent = true ∧ n < w.files ∧ (w.recorder = .idle ∨ n + 1 < w.files)

/-- What the uploader will have seen of the files when the queue is empty. -/
def seen (w : World) : Nat × Bool :=
  match w.recorder with
  | .idle => (w.files, false)
  | .created => (w.last, false)
  | .recording => (w.files, true)
  | .deleted => (w.files, true)

/-- What the server has of the file agrees with it as far as it goes, and the next part leaves no gap. -/
structure Uploaded (w : World) : Prop where
  size : w.uploadSize ≤ (w.server w.filepath).content.length
  agrees : Agrees (w.server w.filepath).content (w.disk w.filepath).content

/-- A frame, or the tail of a file that is kept, is handled. -/
structure Stage (w : World) (flush : Bool) : Prop where
  running : w.running = true
  isOpen : w.isOpen = !flush
  told : 0 < w.told
  kept : flush = true → w.Kept w.filepath
  uploaded : w.Uploaded

def InHandling (w : World) : Handling → Prop
  | .idle => w.isOpen = true → w.running = true → w.Uploaded
  | .opening flush => w.Stage flush
  | .measuring flush => w.Stage flush
  | .reading flush len buf => w.Stage flush ∧ len ≤ (w.disk w.filepath).content.length ∧
    Agrees ((w.server w.filepath).content.take w.uploadSize ++ buf) (w.disk w.filepath).content
  | .tail => w.Stage true ∧ (w.server w.filepath).content.length = (w.disk w.filepath).content.length

structure Inv (w : World) : Prop where
  count : w.recorder ≠ .idle → 0 < w.files
  present : w.recorder = .created ∨ w.recorder = .recording → (w.disk w.last).isPresent = true
  follows : Follows w.Kept w.told w.isOpen w.queue w.seen.1 w.seen.2
  current : 0 < w.told → w.filepath + 1 = w.told
  opened : w.isOpen = true → 0 < w.told
  handled : w.InHandling w.handling
  /-- Only that a file is gone stops the upload of it. -/
  stopped : w.isOpen = true → w.running = false → (w.disk w.filepath).isPresent = false
  tailed : ∀ n ∈ w.tailed, n < w.told ∧ w.Kept n ∧ (w.server n).content = (w.disk n).content ∧
    (w.isOpen = true ∨ w.handling ≠ .idle → n ≠ w.filepath)
  ended : ∀ n ∈ w.ended, n < w.told

theorem inv_init : Inv {} where
  count h := absurd rfl h
  present h := by rcases h with h | h <;> cases h
  follows := .nil 0 false
  current h := absurd h (Nat.lt_irrefl 0)
  opened h := absurd h Bool.false_ne_true
  handled h := absurd h Bool.false_ne_true
  stopped h := absurd h Bool.false_ne_true
  tailed _ hn := absurd hn List.not_mem_nil
  ended _ hn := absurd hn List.not_mem_nil

theorem told_le_files (h : w.Inv) : w.told ≤ w.files := by
  have hle := h.follows.le
  rw [seen] at hle
  cases hr : w.recorder with
  | idle =>
    rw [hr] at hle
    exact hle
  | created =>
    rw [hr] at hle
    exact Nat.le_trans hle (Nat.sub_le _ _)
  | recording =>
    rw [hr] at hle
    exact hle
  | deleted =>
    rw [hr] at hle
    exact hle

theorem filepath_lt (h : w.Inv) (htold : 0 < w.told) : w.filepath < w.files := by
  have hcurrent := h.current htold
  have hle := told_le_files h
  omega

/-- What the recorder does keeps the invariant, when files only grow and the kept ones stay as they are. -/
theorem inv_recorder {recorder : Progress} {files : Nat} {disk : Nat → DiskFile} {queue : List RecordState} (h : w.Inv)
    (hcount : recorder ≠ .idle → 0 < files)
    (hpresent : recorder = .created ∨ recorder = .recording → (disk (files - 1)).isPresent = true)
    (hgrow : ∀ n, n < w.files → Agrees (w.disk n).content (disk n).content)
    (hkept : ∀ n, w.Kept n → Kept { w with recorder, files, disk, queue } n ∧ disk n = w.disk n)
    (hgone : ∀ n, n < w.files → (w.disk n).isPresent = false → (disk n).isPresent = false)
    (hfollows : Follows (Kept { w with recorder, files, disk, queue }) w.told w.isOpen queue
      (seen { w with recorder, files, disk, queue }).1 (seen { w with recorder, files, disk, queue }).2) :
    Inv { w with recorder, files, disk, queue } := by
  have hfile : 0 < w.told → Agrees (w.disk w.filepath).content (disk w.filepath).content := fun htold =>
    hgrow _ (filepath_lt h htold)
  have hstage : ∀ flush, w.Stage flush → Stage { w with recorder, files, disk, queue } flush := fun flush hs =>
    ⟨hs.running, hs.isOpen, hs.told, fun hf => (hkept _ (hs.kept hf)).1, hs.uploaded.size,
      hs.uploaded.agrees.trans (hfile hs.told)⟩
  have hhandled : ∀ handling, w.InHandling handling →
      InHandling { w with recorder, files, disk, queue } handling := by
    intro handling hh
    cases handling with
    | idle => exact fun ho hr => ⟨(hh ho hr).size, (hh ho hr).agrees.trans (hfile (h.opened ho))⟩
    | opening flush => exact hstage flush hh
    | measuring flush => exact hstage flush hh
    | reading flush len buf =>
      obtain ⟨hs, hlen, hagrees⟩ := hh
      exact ⟨hstage flush hs, Nat.le_trans hlen (hfile hs.told).1, hagrees.trans (hfile hs.told)⟩
    | tail =>
      obtain ⟨hs, hlen⟩ := hh
      refine ⟨hstage true hs, ?_⟩
      have hsame := (hkept _ (hs.kept rfl)).2
      simp only [hsame]
      exact hlen
  refine ⟨hcount, hpresent, hfollows, h.current, h.opened, hhandled _ h.handled, ?_, ?_, h.ended⟩
  · intro ho hr
    exact hgone w.filepath (filepath_lt h (h.opened ho)) (h.stopped ho hr)
  · intro n hn
    obtain ⟨hlt, hk, hcontent, hbusy⟩ := h.tailed n hn
    obtain ⟨hk', hsame⟩ := hkept n hk
    refine ⟨hlt, hk', ?_, hbusy⟩
    simp only [hsame]
    exact hcontent

theorem update_disk_ne {f : DiskFile} {m : Nat} (h : n ≠ m) : Function.update w.disk m f n = w.disk n :=
  Function.update_of_ne h f w.disk

theorem ne_last_of_kept (hk : w.Kept n) (hr : w.recorder ≠ .idle) : n ≠ w.last := by
  obtain ⟨-, -, hidle | hlt⟩ := hk
  · exact absurd hidle hr
  · rw [last]
    omega

theorem inv_create (h : w.Inv) (hr : w.recorder = .idle) : w.create.Inv := by
  have hkept : ∀ n, w.Kept n → w.create.Kept n ∧ w.create.disk n = w.disk n := by
    intro n hk
    have hsame : w.create.disk n = w.disk n := update_disk_ne (Nat.ne_of_lt hk.2.1)
    refine ⟨⟨?_, Nat.lt_succ_of_lt hk.2.1, .inr (Nat.succ_lt_succ hk.2.1)⟩, hsame⟩
    rw [hsame]
    exact hk.1
  refine inv_recorder h (fun _ => Nat.succ_pos _) (fun _ => ?_) ?_ hkept ?_ ?_
  · rw [Nat.add_sub_cancel, Function.update_self]
  · intro n hn
    rw [update_disk_ne (Nat.ne_of_lt hn)]
    exact agrees_refl _
  · intro n hn hgone
    rw [update_disk_ne (Nat.ne_of_lt hn)]
    exact hgone
  · have hfollows := h.follows.mono fun n hk => (hkept n hk).1
    rw [seen, hr] at hfollows
    exact hfollows

theorem inv_putLast {recorder : Progress} {f : DiskFile} (h : w.Inv) (hr : w.recorder ≠ .idle)
    (hseen : seen { w with recorder } = w.seen)
    (hpresent : recorder = .created ∨ recorder = .recording → f.isPresent = true)
    (hagrees : Agrees (w.disk w.last).content f.content)
    (hgone : (w.disk w.last).isPresent = false → f.isPresent = false) :
    Inv ({ w with recorder }.putLast f) := by
  have hkept : ∀ n, w.Kept n → Kept ({ w with recorder }.putLast f) n ∧
      Function.update w.disk w.last f n = w.disk n := by
    intro n hk
    have hne := ne_last_of_kept hk hr
    have hsame : Function.update w.disk w.last f n = w.disk n := update_disk_ne hne
    refine ⟨⟨?_, hk.2.1, .inr ?_⟩, hsame⟩
    · have hpresent : (Function.update w.disk w.last f n).isPresent = true := by
        rw [hsame]
        exact hk.1
      exact hpresent
    · rcases hk.2.2 with hidle | hlt
      · exact absurd hidle hr
      · exact hlt
  have hgrow : ∀ n, n < w.files → Agrees (w.disk n).content (Function.update w.disk w.last f n).content := by
    intro n _
    by_cases hn : n = w.last
    · subst hn
      rw [Function.update_self]
      exact hagrees
    · rw [update_disk_ne hn]
      exact agrees_refl _
  have hgone' : ∀ n, n < w.files → (w.disk n).isPresent = false →
      (Function.update w.disk w.last f n).isPresent = false := by
    intro n _ hn
    by_cases hlast : n = w.last
    · subst hlast
      rw [Function.update_self]
      exact hgone hn
    · rw [update_disk_ne hlast]
      exact hn
  have hfollows := h.follows.mono fun n hk => (hkept n hk).1
  rw [← hseen] at hfollows
  have hpresent' : recorder = .created ∨ recorder = .recording →
      (Function.update w.disk w.last f w.last).isPresent = true := by
    rw [Function.update_self]
    exact hpresent
  exact inv_recorder (w := w) h (fun _ => h.count hr) hpresent' hgrow hkept hgone' hfollows

theorem inv_send {recorder : Progress} {state : RecordState} (h : w.Inv) (hfiles : 0 < w.files)
    (hpresent : recorder = .created ∨ recorder = .recording → (w.disk w.last).isPresent = true)
    (hkept : ∀ n, w.Kept n → Kept { w with recorder } n)
    (hfollows : Follows (Kept { w with recorder }) w.seen.1 w.seen.2 [state] (seen { w with recorder }).1
      (seen { w with recorder }).2) : Inv ({ w with recorder }.send state) := by
  have hkept' : ∀ n, w.Kept n → Kept ({ w with recorder }.send state) n ∧ w.disk n = w.disk n := fun n hk =>
    ⟨hkept n hk, rfl⟩
  exact inv_recorder (w := w) h (fun _ => hfiles) hpresent (fun _ _ => agrees_refl _) hkept' (fun _ _ hn => hn)
    ((h.follows.mono hkept).append hfollows)

theorem inv_append {data : Bytes} (h : w.Inv) (hr : w.recorder = .created ∨ w.recorder = .recording) :
    (w.append data).Inv := by
  have hidle : w.recorder ≠ .idle := by
    rcases hr with hr | hr <;> simp [hr]
  exact inv_putLast h hidle rfl (fun _ => h.present hr) (agrees_append _ data) fun hgone => hgone

theorem inv_rewrite {pos : Nat} {data : Bytes} (h : w.Inv)
    (hr : w.recorder = .created ∨ w.recorder = .recording) : (w.rewrite pos data).Inv := by
  have hidle : w.recorder ≠ .idle := by
    rcases hr with hr | hr <;> simp [hr]
  rw [rewrite]
  by_cases hpos : pos + data.length ≤ min maxHeaderLen (w.disk w.last).content.length
  · rw [if_pos hpos]
    exact inv_putLast h hidle rfl (fun _ => h.present hr) (agrees_rewrite hpos) fun hgone => hgone
  · rw [if_neg hpos]
    exact h

theorem inv_delete (h : w.Inv) (hr : w.recorder = .recording) :
    Inv ({ w with recorder := .deleted }.putLast { w.disk w.last with isPresent := false }) := by
  refine inv_putLast h (by simp [hr]) ?_ (fun hf => ?_) (agrees_refl _) fun _ => rfl
  · rw [seen, seen, hr]
  · rcases hf with hf | hf <;> cases hf

theorem kept_of_busy {recorder : Progress} (hr : w.recorder ≠ .idle) (n : Nat) (hk : w.Kept n) :
    Kept { w with recorder } n := by
  refine ⟨hk.1, hk.2.1, .inr ?_⟩
  rcases hk.2.2 with hidle | hlt
  · exact absurd hidle hr
  · exact hlt

theorem last_succ (h : w.Inv) (hr : w.recorder ≠ .idle) : w.last + 1 = w.files :=
  Nat.sub_add_cancel (h.count hr)

theorem inv_newFile (h : w.Inv) (hr : w.recorder = .created) :
    Inv ({ w with recorder := .recording }.send (.newFile w.last)) := by
  have hidle : w.recorder ≠ .idle := by simp [hr]
  refine inv_send h (h.count hidle) (fun _ => h.present (.inl hr)) (kept_of_busy hidle) ?_
  rw [seen, seen, hr]
  simp only
  rw [← last_succ h hidle]
  exact .newFile (.nil _ _)

theorem inv_newFrame (h : w.Inv) (hr : w.recorder = .recording) : (w.send .newFrame).Inv := by
  have hidle : w.recorder ≠ .idle := by simp [hr]
  refine inv_send h (h.count hidle) (fun _ => h.present (.inr hr)) (fun _ hk => hk) ?_
  rw [seen, hr]
  exact .newFrame (.nil _ _)

theorem inv_finish (h : w.Inv) (hr : w.recorder = .recording) :
    Inv ({ w with recorder := .idle }.send .writeTail) := by
  have hidle : w.recorder ≠ .idle := by simp [hr]
  refine inv_send h (h.count hidle) (fun hf => ?_) (kept_of_busy hidle) ?_
  · rcases hf with hf | hf <;> cases hf
  · rw [seen, seen, hr]
    have hlt : w.last < w.files := by
      rw [← last_succ h hidle]
      exact Nat.lt_succ_self _
    exact .writeTail ⟨h.present (.inr hr), hlt, .inl rfl⟩ (.nil _ _)

theorem inv_removeFile (h : w.Inv) (hr : w.recorder = .deleted) :
    Inv ({ w with recorder := .idle }.send .removeFile) := by
  have hidle : w.recorder ≠ .idle := by simp [hr]
  refine inv_send h (h.count hidle) (fun hf => ?_) (kept_of_busy hidle) ?_
  · rcases hf with hf | hf <;> cases hf
  · rw [seen, seen, hr]
    exact .removeFile (.nil _ _)

/-! The uploader -/

variable {queue : List RecordState}

theorem inv_handleNewFile {file : Nat} (h : w.Inv) (hidle : w.handling = .idle) (hq : w.queue = .newFile file :: queue) :
    ({ w with queue }.handleNewFile file).Inv := by
  have hfollows := h.follows
  rw [hq] at hfollows
  obtain ⟨hopen, rfl, hrest⟩ := hfollows.of_newFile
  have hsame : ∀ n, n < w.told → Function.update w.server w.told { isTold := true } n = w.server n := fun n hn =>
    Function.update_of_ne (Nat.ne_of_lt hn) _ _
  refine ⟨h.count, h.present, hrest, fun _ => rfl, fun _ => Nat.succ_pos _, ?_, ?_, ?_, ?_⟩
  · have hnew : (Function.update w.server w.told { isTold := true } w.told).content = [] := by
      rw [Function.update_self]
    have huploaded : ({ w with queue }.handleNewFile w.told).Uploaded :=
      ⟨Nat.zero_le _, by
        have hagrees := agrees_nil (w.disk w.told).content
        rw [← hnew] at hagrees
        exact hagrees⟩
    have hhandling : ({ w with queue }.handleNewFile w.told).handling = .idle := hidle
    rw [hhandling]
    exact fun _ _ => huploaded
  · exact fun _ hr => absurd hr.symm Bool.false_ne_true
  · intro n hn
    obtain ⟨hlt, hk, hcontent, -⟩ := h.tailed n hn
    refine ⟨Nat.lt_succ_of_lt hlt, hk, ?_, fun _ => Nat.ne_of_lt hlt⟩
    have hcontent' : (Function.update w.server w.told { isTold := true } n).content = (w.disk n).content := by
      rw [hsame n hlt, hcontent]
    exact hcontent'
  · exact fun n hn => Nat.lt_succ_of_lt (h.ended n hn)

theorem inv_recvFrame {isDue : Bool} (h : w.Inv) (hidle : w.handling = .idle) (hq : w.queue = .newFrame :: queue) :
    Inv (if w.running && isDue then { w with queue, handling := .opening false } else { w with queue }) := by
  have hfollows := h.follows
  rw [hq] at hfollows
  obtain ⟨hopen, hrest⟩ := hfollows.of_newFrame
  rw [← hopen] at hrest
  have hhandled := h.handled
  rw [hidle] at hhandled
  by_cases hdue : (w.running && isDue) = true
  · rw [if_pos hdue]
    have hrunning : w.running = true := (Bool.and_eq_true_iff.mp hdue).1
    refine ⟨h.count, h.present, hrest, h.current, h.opened, ?_, h.stopped, ?_, h.ended⟩
    · have huploaded := hhandled hopen hrunning
      exact ⟨hrunning, hopen, h.opened hopen, fun hf => absurd hf Bool.false_ne_true, huploaded.size,
        huploaded.agrees⟩
    · intro n hn
      obtain ⟨hlt, hk, hcontent, hbusy⟩ := h.tailed n hn
      exact ⟨hlt, hk, hcontent, fun _ => hbusy (.inl hopen)⟩
  · rw [if_neg hdue]
    refine ⟨h.count, h.present, hrest, h.current, h.opened, ?_, h.stopped, h.tailed, h.ended⟩
    have hh : ({ w with queue } : World).handling = .idle := hidle
    rw [hh]
    exact fun ho hr => ⟨(hhandled ho hr).size, (hhandled ho hr).agrees⟩

theorem running_of_kept (h : w.Inv) (hopen : w.isOpen = true) (hk : w.Kept w.filepath) : w.running = true := by
  by_contra hr
  rw [Bool.not_eq_true] at hr
  have hgone := h.stopped hopen hr
  rw [hk.1] at hgone
  exact absurd hgone.symm Bool.false_ne_true

theorem inv_recvTail (h : w.Inv) (hidle : w.handling = .idle) (hq : w.queue = .writeTail :: queue) :
    Inv (if w.running then { w with queue, isOpen := false, handling := .opening true }
      else { w with queue, isOpen := false, tailed := w.filepath :: w.tailed }) := by
  have hfollows := h.follows
  rw [hq] at hfollows
  obtain ⟨hopen, hk, hrest⟩ := hfollows.of_writeTail
  have htold := h.opened hopen
  have hcurrent := h.current htold
  have hfile : w.told - 1 = w.filepath := by omega
  rw [hfile] at hk
  have hrunning := running_of_kept h hopen hk
  rw [if_pos hrunning]
  have hhandled := h.handled
  rw [hidle] at hhandled
  have huploaded := hhandled hopen hrunning
  refine ⟨h.count, h.present, hrest, h.current, fun ho => absurd ho Bool.false_ne_true, ?_,
    fun ho => absurd ho Bool.false_ne_true, ?_, h.ended⟩
  · exact ⟨hrunning, rfl, htold, fun _ => hk, huploaded.size, huploaded.agrees⟩
  · intro n hn
    obtain ⟨hlt, hkn, hcontent, hbusy⟩ := h.tailed n hn
    exact ⟨hlt, hkn, hcontent, fun _ => hbusy (.inl hopen)⟩

theorem update_server {β : Type} (g : ServerFile → β) {server : Nat → ServerFile} {file : Nat} {f : ServerFile}
    (h : g f = g (server file)) (n : Nat) : g (Function.update server file f n) = g (server n) := by
  by_cases hn : n = file
  · subst hn
    rw [Function.update_self, h]
  · rw [Function.update_of_ne hn]

theorem inv_recvRemove (h : w.Inv) (hidle : w.handling = .idle) (hq : w.queue = .removeFile :: queue) :
    Inv (if w.running then { w with queue, isOpen := false, ended := w.filepath :: w.ended }.request (.remove w.filepath)
      else { w with queue, isOpen := false, ended := w.filepath :: w.ended }) := by
  have hfollows := h.follows
  rw [hq] at hfollows
  obtain ⟨hopen, hrest⟩ := hfollows.of_removeFile
  have hcurrent := h.current (h.opened hopen)
  have hended : ∀ n ∈ w.filepath :: w.ended, n < w.told := by
    intro n hn
    rcases List.mem_cons.mp hn with rfl | hn
    · omega
    · exact h.ended n hn
  have htailed : ∀ n ∈ w.tailed, n < w.told ∧ w.Kept n ∧ (w.server n).content = (w.disk n).content ∧
      (false = true ∨ w.handling ≠ .idle → n ≠ w.filepath) := by
    intro n hn
    obtain ⟨hlt, hk, hcontent, hbusy⟩ := h.tailed n hn
    exact ⟨hlt, hk, hcontent, fun _ => hbusy (.inl hopen)⟩
  by_cases hrunning : w.running = true
  · rw [if_pos hrunning]
    refine ⟨h.count, h.present, hrest, h.current, fun ho => absurd ho Bool.false_ne_true, ?_,
      fun ho => absurd ho Bool.false_ne_true, ?_, hended⟩
    · have hh : (({ w with queue, isOpen := false, ended := w.filepath :: w.ended } : World).request
          (.remove w.filepath)).handling = .idle := hidle
      rw [hh]
      exact fun ho => absurd ho Bool.false_ne_true
    · intro n hn
      obtain ⟨hlt, hk, hcontent, hbusy⟩ := htailed n hn
      have hsame : ((Request.remove w.filepath).apply w.server n).content = (w.server n).content := by
        rw [Request.apply]
        exact update_server ServerFile.content (by rfl) n
      exact ⟨hlt, hk, hsame.trans hcontent, hbusy⟩
  · rw [if_neg hrunning]
    refine ⟨h.count, h.present, hrest, h.current, fun ho => absurd ho Bool.false_ne_true, ?_,
      fun ho => absurd ho Bool.false_ne_true, htailed, hended⟩
    have hh : ({ w with queue, isOpen := false, ended := w.filepath :: w.ended } : World).handling = .idle := hidle
    rw [hh]
    exact fun ho => absurd ho Bool.false_ne_true

theorem inv_recv {isDue : Bool} (h : w.Inv) (hidle : w.handling = .idle) : (w.recv isDue).Inv := by
  rw [recv]
  cases hq : w.queue with
  | nil => exact h
  | cons state queue =>
    cases state with
    | newFile file => exact inv_handleNewFile h hidle hq
    | newFrame => exact inv_recvFrame h hidle hq
    | writeTail => exact inv_recvTail h hidle hq
    | removeFile => exact inv_recvRemove h hidle hq

/-- The uploader goes on with the file that it handles, and sends nothing about another. -/
theorem inv_goesOn {server : Nat → ServerFile} {uploadSize : Nat} {handling : Handling} (h : w.Inv)
    (hbusy : w.handling ≠ .idle) (hother : ∀ n, n ≠ w.filepath → server n = w.server n)
    (hhandled : InHandling { w with server, uploadSize, handling } handling) :
    Inv { w with server, uploadSize, handling } where
  count := h.count
  present := h.present
  follows := h.follows
  current := h.current
  opened := h.opened
  handled := hhandled
  stopped := h.stopped
  tailed n hn := by
    obtain ⟨hlt, hk, hcontent, hne⟩ := h.tailed n hn
    refine ⟨hlt, hk, ?_, fun _ => hne (.inr hbusy)⟩
    simp only [hother n (hne (.inr hbusy))]
    exact hcontent
  ended := h.ended

theorem Stage.goesOn {flush : Bool} {server : Nat → ServerFile} {uploadSize : Nat} (hs : w.Stage flush)
    (handling : Handling) (huploaded : Uploaded { w with server, uploadSize, handling }) :
    Stage { w with server, uploadSize, handling } flush :=
  ⟨hs.running, hs.isOpen, hs.told, hs.kept, huploaded⟩

theorem inv_frameDone {flush : Bool} {server : Nat → ServerFile} {uploadSize : Nat} (h : w.Inv)
    (hbusy : w.handling ≠ .idle) (hs : w.Stage flush) (hother : ∀ n, n ≠ w.filepath → server n = w.server n)
    (huploaded : Uploaded { w with server, uploadSize })
    (hall : flush = true → (server w.filepath).content.length = (w.disk w.filepath).content.length) :
    Inv ({ w with server, uploadSize }.frameDone flush) := by
  refine inv_goesOn (w := w) h hbusy hother ?_
  cases flush with
  | true => exact ⟨hs.goesOn _ ⟨huploaded.size, huploaded.agrees⟩, hall rfl⟩
  | false => exact fun _ _ => ⟨huploaded.size, huploaded.agrees⟩

theorem inv_openFile {flush : Bool} (h : w.Inv) (hh : w.handling = .opening flush) : (w.openFile flush).Inv := by
  have hs := h.handled
  rw [hh] at hs
  have hbusy : w.handling ≠ .idle := by simp [hh]
  have hstage : w.Stage flush := hs
  rw [openFile]
  by_cases hpresent : (w.disk w.filepath).isPresent = true
  · rw [if_pos hpresent]
    exact inv_goesOn h hbusy (fun _ _ => rfl) (hstage.goesOn _ ⟨hstage.uploaded.size, hstage.uploaded.agrees⟩)
  · rw [if_neg hpresent]
    cases flush with
    | true => exact absurd (hstage.kept rfl).1 hpresent
    | false =>
      rw [Bool.not_eq_true] at hpresent
      refine ⟨h.count, h.present, h.follows, h.current, h.opened, ?_, fun _ _ => hpresent, ?_, h.ended⟩
      · exact fun _ hr => absurd hr Bool.false_ne_true
      · intro n hn
        obtain ⟨hlt, hk, hcontent, hne⟩ := h.tailed n hn
        exact ⟨hlt, hk, hcontent, fun _ => hne (.inr hbusy)⟩

theorem inv_metadata {flush : Bool} (h : w.Inv) (hh : w.handling = .measuring flush) : (w.metadata flush).Inv := by
  have hhandled := h.handled
  rw [hh] at hhandled
  have hbusy : w.handling ≠ .idle := by simp [hh]
  have hs : w.Stage flush := hhandled
  rw [metadata]
  by_cases hlen : (w.disk w.filepath).content.length ≤ w.uploadSize
  · simp only [if_pos hlen]
    refine inv_frameDone h hbusy hs (fun _ _ => rfl) hs.uploaded fun _ => ?_
    have hsize := hs.uploaded.size
    have hle := hs.uploaded.agrees.1
    omega
  · simp only [if_neg hlen]
    by_cases hsmall : (!flush && decide ((w.disk w.filepath).content.length - w.uploadSize < shouldSendSize)) = true
    · rw [if_pos hsmall]
      refine inv_frameDone h hbusy hs (fun _ _ => rfl) hs.uploaded fun hflush => ?_
      rw [hflush] at hsmall
      exact absurd hsmall Bool.false_ne_true
    · rw [if_neg hsmall]
      refine inv_goesOn h hbusy (fun _ _ => rfl) ⟨hs.goesOn _ ⟨hs.uploaded.size, hs.uploaded.agrees⟩, Nat.le_refl _, ?_⟩
      rw [List.append_nil]
      exact (agrees_take _ _).trans hs.uploaded.agrees

theorem inv_read {flush : Bool} {len : Nat} {buf : Bytes} (h : w.Inv) (hh : w.handling = .reading flush len buf)
    (n : Nat) : (w.read flush len buf n).Inv := by
  have hhandled := h.handled
  rw [hh] at hhandled
  obtain ⟨hs, hlen, hagrees⟩ := hhandled
  have hbusy : w.handling ≠ .idle := by simp [hh]
  have hsize := hs.uploaded.size
  have hle := hs.uploaded.agrees.1
  have hlength : ((w.server w.filepath).content.take w.uploadSize ++ buf).length = w.uploadSize + buf.length := by
    rw [List.length_append, List.length_take]
    omega
  have hmax := hagrees.1
  rw [hlength] at hmax
  rw [read]
  cases hchunk : ((w.disk w.filepath).content.drop (w.uploadSize + buf.length)).take (n + 1) with
  | cons b chunk =>
    refine inv_goesOn h hbusy (fun _ _ => rfl) ⟨hs.goesOn _ ⟨hs.uploaded.size, hs.uploaded.agrees⟩, hlen, ?_⟩
    have hread := agrees_read hagrees (n + 1)
    rw [hlength, hchunk, List.append_assoc] at hread
    exact hread
  | nil =>
    -- At the end of the file: the server gets as much of it as there is.
    have hend : (w.disk w.filepath).content.length ≤ w.uploadSize + buf.length := by
      rcases List.take_eq_nil_iff.mp hchunk with hzero | hnil
      · cases hzero
      · exact List.drop_eq_nil_iff.mp hnil
    have hserver : ((Request.part w.filepath w.uploadSize buf).apply w.server w.filepath).content =
        (w.server w.filepath).content.take w.uploadSize ++ buf := by
      rw [Request.apply, Function.update_self]
      exact writeAt_part hsize (by omega)
    have hfull : ((Request.part w.filepath w.uploadSize buf).apply w.server w.filepath).content.length =
        (w.disk w.filepath).content.length := by
      rw [hserver, hlength]
      omega
    rw [← hserver] at hagrees
    exact inv_frameDone (w := w) h hbusy hs (fun _ hn => Function.update_of_ne hn _ _)
      ⟨Nat.le_trans hlen (Nat.le_of_eq hfull.symm), hagrees⟩ fun _ => hfull

theorem inv_sendTail (h : w.Inv) (hh : w.handling = .tail) : w.sendTail.Inv := by
  have hhandled := h.handled
  rw [hh] at hhandled
  obtain ⟨hs, hlen⟩ := hhandled
  have hbusy : w.handling ≠ .idle := by simp [hh]
  have hk := hs.kept rfl
  have hopen : w.isOpen = false := hs.isOpen
  have hserver : ((Request.tail w.filepath ((w.disk w.filepath).content.take maxHeaderLen)).apply w.server
      w.filepath).content = (w.disk w.filepath).content := by
    rw [Request.apply, Function.update_self]
    exact writeAt_tail hs.uploaded.agrees hlen
  rw [sendTail, if_pos hk.1]
  have hidle : w.isOpen ≠ true := by simp [hopen]
  have hinv : Inv { w with
      server := (Request.tail w.filepath ((w.disk w.filepath).content.take maxHeaderLen)).apply w.server,
      handling := .idle } :=
    inv_goesOn (w := w) h hbusy (fun _ hn => Function.update_of_ne hn _ _) fun ho => absurd ho hidle
  refine ⟨h.count, h.present, h.follows, h.current, h.opened, fun ho => absurd ho hidle, h.stopped, ?_, h.ended⟩
  intro n hn
  rcases List.mem_cons.mp hn with rfl | hn
  · have hlt : w.filepath < w.told := by
      have hcurrent := h.current hs.told
      omega
    refine ⟨hlt, hk, hserver, fun hb => ?_⟩
    rcases hb with ho | hb
    · exact absurd ho hidle
    · exact absurd rfl hb
  · exact hinv.tailed n hn

theorem inv_guard {p : Prop} [Decidable p] {t : World} (h : w.Inv) (ht : p → t.Inv) : (if p then t else w).Inv := by
  by_cases hp : p
  · rw [if_pos hp]
    exact ht hp
  · rw [if_neg hp]
    exact h

theorem inv_step (h : w.Inv) (e : Step) : (w.step e).Inv := by
  cases e with
  | create => exact inv_guard h (inv_create h)
  | append data => exact inv_guard h (inv_append h)
  | rewrite pos data => exact inv_guard h (inv_rewrite h)
  | newFile => exact inv_guard h (inv_newFile h)
  | newFrame => exact inv_guard h (inv_newFrame h)
  | finish => exact inv_guard h (inv_finish h)
  | delete => exact inv_guard h (inv_delete h)
  | removeFile => exact inv_guard h (inv_removeFile h)
  | recv isDue => exact inv_guard h (inv_recv h)
  | openFile =>
    rw [step]
    split
    · rename_i flush hh
      exact inv_openFile h hh
    · exact h
  | metadata =>
    rw [step]
    split
    · rename_i flush hh
      exact inv_metadata h hh
    · exact h
  | read n =>
    rw [step]
    split
    · rename_i flush len buf hh
      exact inv_read h hh n
    · exact h
  | sendTail => exact inv_guard h (inv_sendTail h)

/-! ### The files that are removed -/

/-- No file that is open has been given up. -/
structure Removing (w : World) : Prop where
  running : w.isOpen = true → w.running = true
  removed : ∀ n ∈ w.ended, (w.server n).isRemoved = true

theorem removing_guard {p : Prop} [Decidable p] {t : World} (h : w.Removing) (ht : p → t.Removing) :
    (if p then t else w).Removing := by
  by_cases hp : p
  · rw [if_pos hp]
    exact ht hp
  · rw [if_neg hp]
    exact h

theorem removing_rewrite {pos : Nat} {data : Bytes} (h : w.Removing) : (w.rewrite pos data).Removing := by
  rw [rewrite]
  exact removing_guard h fun _ => ⟨h.running, h.removed⟩

theorem removing_recv {isDue : Bool} (hinv : w.Inv) (h : w.Removing) : (w.recv isDue).Removing := by
  rw [recv]
  cases hq : w.queue with
  | nil => exact h
  | cons state queue =>
    have hfollows := hinv.follows
    rw [hq] at hfollows
    cases state with
    | newFile file =>
      obtain ⟨-, rfl, -⟩ := hfollows.of_newFile
      refine ⟨fun _ => rfl, fun n hn => ?_⟩
      have hsame : Function.update w.server w.told { isTold := true } n = w.server n :=
        Function.update_of_ne (Nat.ne_of_lt (hinv.ended n hn)) _ _
      have hremoved : (Function.update w.server w.told { isTold := true } n).isRemoved = true := by
        rw [hsame]
        exact h.removed n hn
      exact hremoved
    | newFrame =>
      simp only
      by_cases hdue : (w.running && isDue) = true
      · rw [if_pos hdue]
        exact ⟨h.running, h.removed⟩
      · rw [if_neg hdue]
        exact ⟨h.running, h.removed⟩
    | writeTail =>
      simp only
      by_cases hrunning : w.running = true
      · rw [if_pos hrunning]
        exact ⟨fun ho => absurd ho Bool.false_ne_true, h.removed⟩
      · rw [if_neg hrunning]
        exact ⟨fun ho => absurd ho Bool.false_ne_true, h.removed⟩
    | removeFile =>
      have hrunning := h.running hfollows.of_removeFile.1
      simp only [if_pos hrunning]
      refine ⟨fun ho => absurd ho Bool.false_ne_true, fun n hn => ?_⟩
      have hremoved : ((Request.remove w.filepath).apply w.server n).isRemoved = true := by
        rw [Request.apply]
        by_cases hfile : n = w.filepath
        · subst hfile
          rw [Function.update_self]
        · rw [Function.update_of_ne hfile]
          exact h.removed n ((List.mem_cons.mp hn).resolve_left hfile)
      exact hremoved

theorem removing_step {e : Step} (hinv : w.Inv) (h : w.Removing) (he : w.Present e) : (w.step e).Removing := by
  have hhandled := hinv.handled
  cases e with
  | create => exact removing_guard h fun _ => ⟨h.running, h.removed⟩
  | append data => exact removing_guard h fun _ => ⟨h.running, h.removed⟩
  | rewrite pos data => exact removing_guard h fun _ => removing_rewrite h
  | newFile => exact removing_guard h fun _ => ⟨h.running, h.removed⟩
  | newFrame => exact removing_guard h fun _ => ⟨h.running, h.removed⟩
  | finish => exact removing_guard h fun _ => ⟨h.running, h.removed⟩
  | delete => exact removing_guard h fun _ => ⟨h.running, h.removed⟩
  | removeFile => exact removing_guard h fun _ => ⟨h.running, h.removed⟩
  | recv isDue => exact removing_guard h fun _ => removing_recv hinv h
  | openFile =>
    rw [step]
    split
    · rename_i flush hh
      rw [hh] at hhandled
      have hpresent : (w.disk w.filepath).isPresent = true := by
        cases flush with
        | true => exact (hhandled.kept rfl).1
        | false => exact he hh
      rw [openFile, if_pos hpresent]
      exact ⟨h.running, h.removed⟩
    · exact h
  | metadata =>
    rw [step]
    split
    · rename_i flush hh
      rw [metadata]
      split_ifs <;> exact ⟨h.running, h.removed⟩
    · exact h
  | read n =>
    rw [step]
    split
    · rename_i flush len buf hh
      rw [read]
      split
      · refine ⟨h.running, fun k hk => ?_⟩
        have hsame : ((Request.part w.filepath w.uploadSize buf).apply w.server k).isRemoved =
            (w.server k).isRemoved := by
          rw [Request.apply]
          exact update_server ServerFile.isRemoved (by rfl) k
        exact hsame.trans (h.removed k hk)
      · exact ⟨h.running, h.removed⟩
    · exact h
  | sendTail =>
    refine removing_guard h fun hh => ?_
    rw [hh] at hhandled
    rw [sendTail, if_pos (hhandled.1.kept rfl).1]
    refine ⟨h.running, fun k hk => ?_⟩
    have hsame : ((Request.tail w.filepath ((w.disk w.filepath).content.take maxHeaderLen)).apply w.server
        k).isRemoved = (w.server k).isRemoved := by
      rw [Request.apply]
      exact update_server ServerFile.isRemoved (by rfl) k
    exact hsame.trans (h.removed k hk)

def Sound (w : World) : Prop := w.Inv ∧ w.Removing

theorem sound_init : Sound {} :=
  ⟨inv_init, fun ho => absurd ho Bool.false_ne_true, fun _ hn => absurd hn List.not_mem_nil⟩

theorem sound_step {e : Step} (h : w.Sound) (he : w.Present e) : (w.step e).Sound :=
  ⟨inv_step h.1 e, removing_step h.1 h.2 he⟩

/-- What the server has of a file after its `WriteTail` is the file, in every run; and when no file of a frame is
gone before it is opened, the server is told to remove every file that was removed. -/
theorem upload_run (es : List Step) :
    Throughout World.step Delivered {} es ∧
      (Guarded World.step Present {} es → Throughout World.step Removed {} es) := by
  constructor
  · have hall : Guarded World.step (fun _ _ => True) {} es := History.guarded_of_forall (fun _ _ => trivial)
    have hinv := History.throughout_of_guarded (fun w e (h : w.Inv) _ => inv_step h e) inv_init hall
    exact History.throughout_imp (fun w h n hn => (h.tailed n hn).2.2.1) hinv
  · intro hpresent
    have hinv := History.throughout_of_guarded (fun _ _ => sound_step) sound_init hpresent
    exact History.throughout_imp (fun w h n hn _ => h.2.removed n hn) hinv

/-- A file that is finished while a frame of it waits, with its first byte written again, and one that is removed. -/
def finishedAndRemoved : List Step :=
  [.create, .append [1, 2, 3], .newFile, .newFrame, .recv false, .recv true, .openFile, .metadata, .append [4],
    .rewrite 0 [9], .finish, .recv false, .openFile, .metadata, .read 1, .read 9, .read 0, .sendTail,
    .create, .newFile, .newFrame, .recv false, .delete, .removeFile, .recv false, .recv false]

theorem upload_finishedAndRemoved :
    (Throughout World.step Delivered {} finishedAndRemoved ∧
      (Guarded World.step Present {} finishedAndRemoved → Throughout World.step Removed {} finishedAndRemoved)) ∧
      Guarded World.step Present {} finishedAndRemoved ∧
      (run World.step {} finishedAndRemoved).tailed = [0] ∧
      (run World.step {} finishedAndRemoved).ended = [1] ∧
      ((run World.step {} finishedAndRemoved).server 0).content = [9, 2, 3, 4] :=
  ⟨upload_run finishedAndRemoved, by decide +kernel⟩

/-- A frame is handled a second after the file of it was begun, when the recorder has removed it. -/
def lateFrame : List Step :=
  [.create, .newFile, .recv false, .newFrame, .delete, .removeFile, .recv true, .openFile, .recv false]

theorem lateFrame_not_removed : ¬ Removed (run World.step {} lateFrame) := by
  intro h
  have hremoved := h 0 (by decide +kernel) (by decide +kernel)
  exact absurd hremoved (by decide +kernel)

end World

end RustDesk.Recording
