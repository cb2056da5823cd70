import RustDesk.ClipboardRanges
import RustDesk.ClipboardReads

/-!
# Reads of the files to be pasted

The file system that shows the files of a peer sends a request under a random id for each read and
waits for the answer to it. The answer to a read that has timed out may still come, and what failed is
asked for again, three times at most. There is one read at a time. The peer answers the requests, or
its user copies other files, in between, and messages are lost on the way.

A request and its answers have the number of the read here, which the program does not have.
-/

namespace RustDesk.Clipboard.FuseReads

open History (run Always Guarded Throughout)
open ClipFiles (asU64 AllKept)

/-- What `read_node` is called with, and the id that it draws. -/
structure Read where
  streamId : BitVec 32
  index : BitVec 32
  offset : BitVec 64
  size : BitVec 32
  deriving DecidableEq, Repr

def Read.request (r : Read) : ClipboardFile := readNode r.streamId r.index r.offset r.size

inductive ReadError
  | notSent
  | timedOut
  | failureRequest
  | invalidReply
  deriving DecidableEq, Repr

def readRetry : Nat := 3

structure Reading where
  nth : Nat
  read : Read
  retryTimes : Nat := 0
  deriving DecidableEq, Repr

structure Parcel where
  nth : Nat
  message : ClipboardFile
  deriving DecidableEq, Repr

/-- The newest entry comes first. A message is served of the files that are listed then. -/
inductive Entry
  | asked (nth : Nat) (read : Read)
  | served (nth : Nat) (files : List LocalFile) (message : ClipboardFile)
  | finished (nth : Nat) (read : Read) (result : Except ReadError Bytes)

/-- The files of one side, the read of the other, and the messages between them. -/
structure State where
  files : ClipFiles := ⟨[], 0⟩
  reading : Option Reading := none
  count : Nat := 0
  requests : List Parcel := []
  responses : List Parcel := []
  log : List Entry := []

/-- `sent` is whether `send_data` takes a message that the step sends. -/
inductive Event
  | read (r : Read) (sent : Bool)
  | recv (sent : Bool)
  | timeout
  | serve (connId : BitVec 32) (io next : FileIo)
  | syncFiles (files : List (String × Nat × Bool)) (firstFileIndex : Nat)
  | loseRequest (i : Nat)
  | loseResponse (i : Nat)

/-- What `serve_clip_messages` makes of a result; the list of the files goes to the audit only. -/
def message (streamId : BitVec 32) : Reply → Option ClipboardFile
  | .answer (.ok (.files _)) => none
  | .answer (.ok data) => some data
  | .answer (.error _) => some (.fileContentsResponse 0x2 streamId [])
  | .panic => none

/-- `serve_clip_messages` for a request, by the files afterwards and what is sent. -/
def serveClipMessages (disk : FileData) (isFile : String → Bool) (connId : BitVec 32) (io next : FileIo)
    (s : ClipFiles) (clip : ClipboardFile) : ClipFiles × List ClipboardFile :=
  match clip with
  | .fileContentsRequest streamId .. =>
    let r := s.answer disk isFile { connId, message := clip, io, next }
    (r.1, r.2.filterMap (message streamId))
  | _ => (s, [])

namespace State

variable (s : State)

def finish (rd : Reading) (result : Except ReadError Bytes) : State :=
  { s with reading := none, log := .finished rd.nth rd.read result :: s.log }

/-- The request of a read is sent, or it fails. -/
def ask (rd : Reading) (sent : Bool) : State :=
  if sent then
    { s with
      reading := some rd
      requests := s.requests ++ [⟨rd.nth, rd.read.request⟩]
      log := .asked rd.nth rd.read :: s.log }
  else s.finish rd (.error .notSent)

/-- The loop of `read_node`, once round. -/
def recv (sent : Bool) : State :=
  match s.reading, s.responses with
  | some rd, p :: rest =>
    let s := { s with responses := rest }
    match p.message with
    | .fileContentsResponse msgFlags streamId requestedData =>
      if streamId ≠ rd.read.streamId then s
      else if msgFlags &&& 1 = 0 then
        let rd := { rd with retryTimes := rd.retryTimes + 1 }
        if rd.retryTimes > readRetry then s.finish rd (.error .failureRequest) else s.ask rd sent
      else s.finish rd (.ok requestedData)
    | _ => s.finish rd (.error .invalidReply)
  | _, _ => s

def serve (disk : FileData) (isFile : String → Bool) (connId : BitVec 32) (io next : FileIo) : State :=
  match s.requests with
  | [] => s
  | p :: rest =>
    let r := serveClipMessages disk isFile connId io next s.files p.message
    { s with
      files := r.1
      requests := rest
      responses := s.responses ++ r.2.map (⟨p.nth, ·⟩)
      log := r.2.map (.served p.nth s.files.fileList ·) ++ s.log }

end State

/-- The reader holds the lock of the `FuseServer` while it waits. -/
def State.step (disk : FileData) (isFile : String → Bool) (s : State) : Event → State
  | .read r sent =>
    match s.reading with
    | some _ => s
    | none => { s with count := s.count + 1 }.ask { nth := s.count, read := r } sent
  | .recv sent => s.recv sent
  | .timeout =>
    match s.reading with
    | some rd => s.finish rd (.error .timedOut)
    | none => s
  | .serve connId io next => s.serve disk isFile connId io next
  | .syncFiles files firstFileIndex =>
    { s with
      files := { fileList := files.map fun f => LocalFile.listed f.1 f.2.1 f.2.2, firstFileIndex } }
  | .loseRequest i => { s with requests := s.requests.eraseIdx i }
  | .loseResponse i => { s with responses := s.responses.eraseIdx i }

/-! ### What a read gives -/

def streamIdOf : ClipboardFile → Option (BitVec 32)
  | .fileContentsRequest streamId .. => some streamId
  | .fileContentsResponse _ streamId _ => some streamId
  | .files _ => none

def failed : ClipboardFile → Bool
  | .fileContentsResponse msgFlags _ _ => msgFlags &&& 1 = 0
  | _ => false

def Entry.isAsked (n : Nat) : Entry → Bool
  | .asked nth _ => nth = n
  | _ => false

def Entry.isRefused (n : Nat) : Entry → Bool
  | .served nth _ m => nth = n && failed m
  | _ => false

/-- An id is not drawn while a message with it is on the way. -/
def NewId (s : State) : Event → Prop
  | .read r _ => s.reading = none → ∀ p ∈ s.requests ++ s.responses, streamIdOf p.message ≠ some r.streamId
  | _ => True

/-- The bytes are those of the listed file, where the request puts them. -/
def Contents (disk : FileData) (files : List LocalFile) (r : Read) (data : Bytes) : Prop :=
  ∃ f offset length, files[(asU64 r.index).toNat]? = some f ∧
    ClipFiles.requested r.request = some (.range r.streamId (asU64 r.index).toNat offset length) ∧
    data = ((disk.data f.path).drop offset).take (ClipFiles.readSize f.size offset length)

/-- They are those that the read asks for, if the file has the size that is listed. -/
def Shown (disk : FileData) (files : List LocalFile) (r : Read) (data : Bytes) : Prop :=
  ∃ f, files[(asU64 r.index).toNat]? = some f ∧ (f.size = (disk.data f.path).length →
    data = ((disk.data f.path).drop r.offset.toNat).take r.size.toNat)

/-- An offset whose lower half has no sign, and a size as the kernel asks for. -/
def Read.Plain (r : Read) : Prop :=
  r.offset.toNat < 2 ^ 63 ∧ r.offset.toNat.testBit 31 = false ∧ r.size.toNat ≤ blockSize

/-- The bytes that a read gives were sent in answer to it, from the files of that moment; what is not
read has failed four times or was not answered. -/
structure Sound (disk : FileData) (nth : Nat) (r : Read) (result : Except ReadError Bytes)
    (before : List Entry) : Prop where
  answered : ∀ data, result = .ok data → ∃ files,
    .served nth files (.fileContentsResponse 1 r.streamId data) ∈ before ∧
      Contents disk files r data ∧ (r.Plain → Shown disk files r data)
  asked : before.countP (Entry.isAsked nth) ≤ readRetry + 1
  refused : result = .error .failureRequest → readRetry + 1 ≤ before.countP (Entry.isRefused nth)
  valid : result ≠ .error .invalidReply

def SoundEntry (disk : FileData) (e : Entry) (before : List Entry) : Prop :=
  ∀ nth r result, e = .finished nth r result → Sound disk nth r result before

/-! ### What is served -/

section

variable {disk : FileData} {isFile : String → Bool} {connId : BitVec 32} {io next : FileIo} {s : ClipFiles}

theorem length_reloadNext (io : FileIo) (fs : List LocalFile) :
    (ClipFiles.reloadNext io fs).1.length = fs.length := by
  induction fs with
  | nil => rfl
  | cons f fs ih =>
    unfold ClipFiles.reloadNext
    split_ifs
    · simp [ih]
    · rfl

theorem length_hotReload (io : FileIo) (fileIdx : Nat) (resp : ClipboardFile) (s : ClipFiles) :
    (s.hotReload io fileIdx resp).1.fileList.length = s.fileList.length := by
  unfold ClipFiles.hotReload
  rw [List.length_append, length_reloadNext, ← List.length_append, List.take_append_drop]

theorem length_serveFileContents (request : FileContentsRequest) :
    (s.serveFileContents disk io next connId request).1.fileList.length = s.fileList.length := by
  unfold ClipFiles.serveFileContents
  split
  · split
    · rfl
    · exact length_hotReload _ _ _ _
  · split
    · rfl
    · split_ifs
      · rfl
      · rfl
      · dsimp only
        split
        · exact List.length_set
        · rw [length_hotReload]
          exact List.length_set

theorem length_step (call : ClipFiles.Call) :
    (s.step disk isFile call).fileList.length = s.fileList.length := by
  unfold ClipFiles.step ClipFiles.answer ClipFiles.readFileContents
  split
  · split
    · rfl
    · exact length_serveFileContents _
  · rfl

theorem positioned_step (h : ∀ f ∈ s.fileList, f.Positioned) (call : ClipFiles.Call) :
    ∀ f ∈ (s.step disk isFile call).fileList, f.Positioned := by
  intro g hg
  obtain ⟨i, hi⟩ := List.mem_iff_getElem?.mp hg
  have hlt : i < s.fileList.length := by
    have hlength : (s.step disk isFile call).fileList.length = s.fileList.length := length_step call
    exact hlength ▸ (List.getElem?_eq_some_iff.mp hi).1
  obtain ⟨g', hg', hkept⟩ := @ClipFiles.step_kept disk isFile s call i _ (List.getElem?_eq_getElem hlt)
  rw [hi] at hg'
  cases hg'
  exact hkept.positioned (h _ (List.getElem_mem hlt))

theorem positioned_serve (h : ∀ f ∈ s.fileList, f.Positioned) (clip : ClipboardFile) :
    ∀ f ∈ (serveClipMessages disk isFile connId io next s clip).1.fileList, f.Positioned := by
  unfold serveClipMessages
  split
  · exact positioned_step h _
  · exact h

/-- A range is refused, or sent with its bytes. -/
theorem serveFileContents_cases {streamId : BitVec 32} {fileIdx offset length : Nat}
    (h : ∀ f ∈ s.fileList, f.Positioned) {m : ClipboardFile}
    (hm : message streamId
      (s.serveFileContents disk io next connId (.range streamId fileIdx offset length)).2 = some m) :
    m = .fileContentsResponse 2 streamId [] ∨ ∃ f data, s.fileList[fileIdx]? = some f ∧
      data = ((disk.data f.path).drop offset).take (ClipFiles.readSize f.size offset length) ∧
      m = .fileContentsResponse 1 streamId data := by
  unfold ClipFiles.serveFileContents at hm
  dsimp only at hm
  cases hfile : s.fileList[fileIdx]? with
  | none =>
    rw [hfile] at hm
    exact Or.inl (Option.some.inj hm).symm
  | some f =>
    rw [hfile] at hm
    dsimp only at hm
    split_ifs at hm
    · exact Or.inl (Option.some.inj hm).symm
    · cases hm
    · generalize hread :
        f.readExactAt (disk.data f.path) io (ClipFiles.readSize f.size offset length) offset = q at hm
      obtain ⟨g, e | buf⟩ := q
      · exact Or.inl (Option.some.inj hm).symm
      · have hsound := LocalFile.readExactAt_sound (h f (List.mem_of_getElem? hfile))
          (show (f.readExactAt (disk.data f.path) io _ offset).2 = .ok buf by rw [hread])
        dsimp only at hm
        obtain hok | ⟨e, herr⟩ := ClipFiles.Fields.hotReload_reply next fileIdx
          (.fileContentsResponse 1 streamId buf) { s with fileList := s.fileList.set fileIdx g }
        · rw [hok] at hm
          exact Or.inr ⟨f, buf, rfl, hsound.1, (Option.some.inj hm).symm⟩
        · rw [herr] at hm
          exact Or.inl (Option.some.inj hm).symm

theorem Contents.shown {files : List LocalFile} {r : Read} {data : Bytes} (h : Contents disk files r data)
    (hplain : r.Plain) : Shown disk files r data := by
  obtain ⟨f, offset, length, hf, hreq, hdata⟩ := h
  obtain ⟨hoffset, hbit, hsize⟩ := hplain
  have hasks : ClipFiles.Asks r.offset r.size.toNat r.request r.streamId r.index := by
    have hfuse := ClipFiles.Asks.fuse (o := r.offset) (n := r.size.toNat) r.streamId r.index
    rw [BitVec.ofNat_toNat, BitVec.setWidth_eq] at hfuse
    exact hfuse
  rw [ClipFiles.requested_asks hsize hasks, (ClipFiles.join_iff r.offset hoffset).mpr hbit] at hreq
  simp only [Option.some.injEq, FileContentsRequest.range.injEq, true_and] at hreq
  obtain ⟨rfl, rfl⟩ := hreq
  have hwrap : r.offset.toNat + r.size.toNat < 2 ^ 64 := by
    unfold blockSize at hsize
    omega
  refine ⟨f, hf, fun hlen => ?_⟩
  rw [hdata, ClipFiles.Fields.readSize_le hwrap, hlen, Nat.min_comm, ← List.length_drop]
  exact List.take_eq_take_min.symm

/-- A message that answers the request of a read. -/
def Answers (disk : FileData) (files : List LocalFile) (r : Read) (m : ClipboardFile) : Prop :=
  m = .fileContentsResponse 2 r.streamId [] ∨
    ∃ data, m = .fileContentsResponse 1 r.streamId data ∧ Contents disk files r data

theorem serve_request (h : ∀ f ∈ s.fileList, f.Positioned) (r : Read) {m : ClipboardFile}
    (hm : m ∈ (serveClipMessages disk isFile connId io next s r.request).2) :
    Answers disk s.fileList r m := by
  obtain ⟨reply, hreply, hm⟩ := List.mem_filterMap.mp hm
  change reply ∈ (s.readFileContents disk isFile io next connId r.streamId r.index 2
    ((r.offset &&& 0xFFFFFFFF).setWidth 32) ((r.offset.sshiftRight 32).setWidth 32) r.size).2 at hreply
  obtain ⟨offset, length, hrange⟩ : ∃ offset length, ClipFiles.requested r.request =
      some (.range r.streamId (asU64 r.index).toNat offset length) := ⟨_, _, rfl⟩
  have hrequest : ClipFiles.contentsRequest r.streamId r.index 2 ((r.offset &&& 0xFFFFFFFF).setWidth 32)
      ((r.offset.sshiftRight 32).setWidth 32) r.size = _ := hrange
  unfold ClipFiles.readFileContents at hreply
  rw [hrequest] at hreply
  rcases List.mem_append.mp hreply with haudit | hreply
  · rw [Option.mem_toList, Option.map_eq_some_iff] at haudit
    obtain ⟨c, hc, rfl⟩ := haudit
    obtain ⟨files, rfl⟩ := ClipFiles.Fields.getFilesForAudit_files hc
    cases hm
  · obtain rfl := List.mem_singleton.mp hreply
    rcases serveFileContents_cases h hm with hfail | ⟨f, data, hf, hdata, hok⟩
    · exact Or.inl hfail
    · exact Or.inr ⟨data, hok, f, offset, length, hf, hrange, hdata⟩

end

/-! ### Requests and answers on the way -/

/-- An answer to a read that says that it failed. -/
def Parcel.refuses (n : Nat) (p : Parcel) : Bool := p.nth = n && failed p.message

/-- What is on the way with the id of the reader is about its read, and no failed answer is forgotten. -/
structure State.Waits (s : State) (rd : Reading) : Prop where
  asked : .asked rd.nth rd.read ∈ s.log
  apart : ∀ p ∈ s.requests ++ s.responses, streamIdOf p.message = some rd.read.streamId → p.nth = rd.nth
  tries : s.log.countP (Entry.isAsked rd.nth) = rd.retryTimes + 1
  bound : rd.retryTimes ≤ readRetry
  refused : rd.retryTimes + s.responses.countP (Parcel.refuses rd.nth) ≤
    s.log.countP (Entry.isRefused rd.nth)

structure State.Kept (disk : FileData) (s : State) : Prop where
  positioned : ∀ f ∈ s.files.fileList, f.Positioned
  requests : ∀ p ∈ s.requests, ∃ r, .asked p.nth r ∈ s.log ∧ p.message = r.request
  responses : ∀ p ∈ s.responses, ∃ r files, .asked p.nth r ∈ s.log ∧
    .served p.nth files p.message ∈ s.log ∧ Answers disk files r p.message
  same : ∀ n r r', .asked n r ∈ s.log → .asked n r' ∈ s.log → r = r'
  begun : ∀ n r, .asked n r ∈ s.log → n < s.count
  waits : ∀ rd, s.reading = some rd → s.Waits rd
  sound : Always (SoundEntry disk) s.log

section

variable {disk : FileData} {isFile : String → Bool} {s : State} {rd : Reading}

theorem streamIdOf_request (r : Read) : streamIdOf r.request = some r.streamId := rfl

theorem streamIdOf_answers {files : List LocalFile} {r : Read} {m : ClipboardFile}
    (h : Answers disk files r m) : streamIdOf m = some r.streamId := by
  rcases h with rfl | ⟨data, rfl, -⟩
  · rfl
  · rfl

theorem mem_asked_finished {n nth : Nat} {r read : Read} {result : Except ReadError Bytes}
    {log : List Entry} : .asked n r ∈ (Entry.finished nth read result :: log) ↔ .asked n r ∈ log := by
  simp

theorem countP_isAsked_zero {n : Nat} {log : List Entry} (h : ∀ r, .asked n r ∉ log) :
    log.countP (Entry.isAsked n) = 0 := by
  rw [List.countP_eq_zero]
  intro e he hasked
  cases e with
  | asked nth r =>
    obtain rfl : nth = n := by simpa [Entry.isAsked] using hasked
    exact h r he
  | served => cases hasked
  | finished => cases hasked

theorem always_served {nth : Nat} {files : List LocalFile} {log : List Entry}
    (h : Always (SoundEntry disk) log) (ms : List ClipboardFile) :
    Always (SoundEntry disk) (ms.map (.served nth files ·) ++ log) := by
  induction ms with
  | nil => exact h
  | cons m ms ih => exact ⟨fun n r result heq => (by cases heq), ih⟩

namespace State.Kept

theorem finish (h : s.Kept disk) (rd : Reading) {result : Except ReadError Bytes}
    (hsound : Sound disk rd.nth rd.read result s.log) : (s.finish rd result).Kept disk where
  positioned := h.positioned
  requests := fun p hp => by
    obtain ⟨r, hasked, hmsg⟩ := h.requests p hp
    exact ⟨r, List.mem_cons_of_mem _ hasked, hmsg⟩
  responses := fun p hp => by
    obtain ⟨r, files, hasked, hserved, hanswers⟩ := h.responses p hp
    exact ⟨r, files, List.mem_cons_of_mem _ hasked, List.mem_cons_of_mem _ hserved, hanswers⟩
  same := fun n r r' hr hr' => h.same n r r' (mem_asked_finished.mp hr) (mem_asked_finished.mp hr')
  begun := fun n r hr => h.begun n r (mem_asked_finished.mp hr)
  waits := fun _ hrd => by cases hrd
  sound := ⟨fun n r result heq => (by cases heq; exact hsound), h.sound⟩

/-- Messages are lost, or taken by the reader. -/
theorem fewer (h : s.Kept disk) {requests responses : List Parcel} (hreq : requests.Sublist s.requests)
    (hres : responses.Sublist s.responses) : State.Kept disk { s with requests, responses } where
  positioned := h.positioned
  requests := fun p hp => h.requests p (hreq.subset hp)
  responses := fun p hp => h.responses p (hres.subset hp)
  same := h.same
  begun := h.begun
  waits := fun rd hrd =>
    have hw := h.waits rd hrd
    { asked := hw.asked
      apart := fun p hp => hw.apart p ((hreq.append hres).subset hp)
      tries := hw.tries
      bound := hw.bound
      refused := le_trans (Nat.add_le_add_left hres.countP_le _) hw.refused }
  sound := h.sound

theorem ask (h : s.Kept disk) (rd : Reading) (hbegun : rd.nth < s.count)
    (hsame : ∀ r, .asked rd.nth r ∈ s.log → r = rd.read)
    (hapart : ∀ p ∈ s.requests ++ s.responses,
      streamIdOf p.message = some rd.read.streamId → p.nth = rd.nth)
    (htries : s.log.countP (Entry.isAsked rd.nth) = rd.retryTimes) (hbound : rd.retryTimes ≤ readRetry)
    (hrefused : rd.retryTimes + s.responses.countP (Parcel.refuses rd.nth) ≤
      s.log.countP (Entry.isRefused rd.nth))
    (sent : Bool) : (s.ask rd sent).Kept disk := by
  have hnew : ∀ n r, .asked n r ∈ (Entry.asked rd.nth rd.read :: s.log) →
      (n = rd.nth ∧ r = rd.read) ∨ .asked n r ∈ s.log := by
    intro n r hr
    simpa using hr
  unfold State.ask
  cases sent with
  | false =>
    rw [if_neg Bool.false_ne_true]
    exact h.finish rd ⟨fun _ heq => (by cases heq), by omega, fun heq => (by cases heq), fun heq => (by cases heq)⟩
  | true =>
    rw [if_pos rfl]
    refine ⟨h.positioned, fun p hp => ?_, fun p hp => ?_, fun n r r' hr hr' => ?_, fun n r hr => ?_,
      fun rd' hrd' => ?_, ⟨fun n r result heq => (by cases heq), h.sound⟩⟩
    · rcases List.mem_append.mp hp with hp | hp
      · obtain ⟨r, hasked, hmsg⟩ := h.requests p hp
        exact ⟨r, List.mem_cons_of_mem _ hasked, hmsg⟩
      · obtain rfl := List.mem_singleton.mp hp
        exact ⟨rd.read, List.mem_cons_self, rfl⟩
    · obtain ⟨r, files, hasked, hserved, hanswers⟩ := h.responses p hp
      exact ⟨r, files, List.mem_cons_of_mem _ hasked, List.mem_cons_of_mem _ hserved, hanswers⟩
    · rcases hnew n r hr with ⟨rfl, rfl⟩ | hr
      · rcases hnew _ r' hr' with ⟨-, rfl⟩ | hr'
        · rfl
        · exact (hsame r' hr').symm
      · rcases hnew n r' hr' with ⟨rfl, rfl⟩ | hr'
        · exact hsame r hr
        · exact h.same n r r' hr hr'
    · rcases hnew n r hr with ⟨rfl, rfl⟩ | hr
      · exact hbegun
      · exact h.begun n r hr
    · obtain rfl := Option.some.inj hrd'
      refine ⟨List.mem_cons_self, fun p hp hid => ?_, ?_, hbound, ?_⟩
      · rw [List.mem_append, List.mem_append, List.mem_singleton] at hp
        rcases hp with (hp | rfl) | hp
        · exact hapart p (List.mem_append_left _ hp) hid
        · rfl
        · exact hapart p (List.mem_append_right _ hp) hid
      · rw [List.countP_cons_of_pos (by simp [Entry.isAsked]), htries]
      · rw [List.countP_cons_of_neg (by simp [Entry.isRefused])]
        exact hrefused

theorem recv (h : s.Kept disk) (sent : Bool) : (s.recv sent).Kept disk := by
  unfold State.recv
  split
  · rename_i rd p rest hrd hres
    have hw := h.waits rd hrd
    have hrest : State.Kept disk { s with responses := rest } :=
      h.fewer (List.Sublist.refl _) (by rw [hres]; exact List.sublist_cons_self _ _)
    have hmem : p ∈ s.responses := by rw [hres]; exact List.mem_cons_self
    obtain ⟨r, files, hasked, hserved, hanswers⟩ := h.responses p hmem
    have hid := streamIdOf_answers hanswers
    dsimp only
    by_cases hsame : r.streamId = rd.read.streamId
    · have hnth : p.nth = rd.nth :=
        hw.apart p (List.mem_append_right _ hmem) (hid.trans (congrArg some hsame))
      rw [hnth] at hasked hserved
      obtain rfl : r = rd.read := h.same _ _ _ hasked hw.asked
      rcases hanswers with hfail | ⟨data, hok, hcontents⟩
      · -- a failed answer to the read: it is asked for again, or was four times
        have hcount : s.responses.countP (Parcel.refuses rd.nth) =
            rest.countP (Parcel.refuses rd.nth) + 1 := by
          rw [hres, List.countP_cons_of_pos (by simp [Parcel.refuses, hnth, hfail, failed])]
        have hrefused := hw.refused
        rw [hcount] at hrefused
        have htries := hw.tries
        have hbound := hw.bound
        rw [hfail]
        dsimp only
        rw [if_neg (not_not.mpr rfl), if_pos (by decide)]
        split_ifs with hmany
        · refine hrest.finish { rd with retryTimes := rd.retryTimes + 1 }
            ⟨fun _ heq => (by cases heq), ?_, fun _ => ?_, fun heq => (by cases heq)⟩
          · dsimp only
            omega
          · dsimp only at hmany ⊢
            omega
        · refine hrest.ask { rd with retryTimes := rd.retryTimes + 1 } (h.begun _ _ hw.asked)
            (fun r hr => h.same _ _ _ hr hw.asked)
            (fun p' hp' => hw.apart p' ?_) hw.tries (Nat.le_of_not_lt hmany) ?_ sent
          · rw [List.mem_append] at hp' ⊢
            exact hp'.imp_right fun hp' => by rw [hres]; exact List.mem_cons_of_mem _ hp'
          · dsimp only
            omega
      · rw [hok]
        dsimp only
        rw [if_neg (not_not.mpr rfl), if_neg (by decide)]
        refine hrest.finish rd ⟨fun data' heq => ?_, ?_, fun heq => (by cases heq), fun heq => (by cases heq)⟩
        · cases heq
          exact ⟨files, by rw [← hok]; exact hserved, hcontents, hcontents.shown⟩
        · have htries := hw.tries
          have hbound := hw.bound
          dsimp only
          omega
    · rcases hanswers with hfail | ⟨data, hok, -⟩
      · rw [hfail]
        dsimp only
        rw [if_pos hsame]
        exact hrest
      · rw [hok]
        dsimp only
        rw [if_pos hsame]
        exact hrest
  · exact h

theorem serve (h : s.Kept disk) (connId : BitVec 32) (io next : FileIo) :
    (s.serve disk isFile connId io next).Kept disk := by
  unfold State.serve
  split
  · exact h
  · rename_i p rest hreq
    have hmem : p ∈ s.requests := by rw [hreq]; exact List.mem_cons_self
    obtain ⟨r, hasked, hmsg⟩ := h.requests p hmem
    have hanswers : ∀ m ∈ (serveClipMessages disk isFile connId io next s.files r.request).2,
        Answers disk s.files.fileList r m := fun _ hm => serve_request h.positioned r hm
    rw [← hmsg] at hanswers
    have hpositioned : ∀ f ∈ (serveClipMessages disk isFile connId io next s.files p.message).1.fileList,
        f.Positioned := positioned_serve h.positioned p.message
    generalize serveClipMessages disk isFile connId io next s.files p.message = q at hanswers hpositioned
    obtain ⟨files, ms⟩ := q
    have hserved : ∀ n r, .asked n r ∈ ms.map (Entry.served p.nth s.files.fileList ·) ++ s.log →
        .asked n r ∈ s.log := by
      intro n r hr
      simpa using hr
    refine ⟨hpositioned, fun p' hp' => ?_, fun p' hp' => ?_, fun n r r' hr hr' => ?_, fun n r hr => ?_,
      fun rd hrd => ?_, always_served h.sound ms⟩
    · obtain ⟨r', hasked', hmsg'⟩ := h.requests p' (by rw [hreq]; exact List.mem_cons_of_mem _ hp')
      exact ⟨r', List.mem_append_right _ hasked', hmsg'⟩
    · rcases List.mem_append.mp hp' with hp' | hp'
      · obtain ⟨r', files', hasked', hserved', hanswers'⟩ := h.responses p' hp'
        exact ⟨r', files', List.mem_append_right _ hasked', List.mem_append_right _ hserved', hanswers'⟩
      · obtain ⟨m, hm, rfl⟩ := List.mem_map.mp hp'
        exact ⟨r, _, List.mem_append_right _ hasked, List.mem_append_left _ (List.mem_map_of_mem hm),
          hanswers m hm⟩
    · exact h.same n r r' (hserved n r hr) (hserved n r' hr')
    · exact h.begun n r (hserved n r hr)
    · have hw := h.waits rd hrd
      refine ⟨List.mem_append_right _ hw.asked, fun p' hp' hid => ?_, ?_, hw.bound, ?_⟩
      · rw [List.mem_append, List.mem_append] at hp'
        rcases hp' with hp' | hp' | hp'
        · exact hw.apart p' (List.mem_append_left _ (by rw [hreq]; exact List.mem_cons_of_mem _ hp')) hid
        · exact hw.apart p' (List.mem_append_right _ hp') hid
        · -- the answers have the id and the number of the request
          obtain ⟨m, hm, rfl⟩ := List.mem_map.mp hp'
          rw [streamIdOf_answers (hanswers m hm), ← streamIdOf_request, ← hmsg] at hid
          exact hw.apart p (List.mem_append_left _ hmem) hid
      · rw [List.countP_append, hw.tries, List.countP_map]
        simp [Function.comp_def, Entry.isAsked]
      · rw [List.countP_append, List.countP_append, List.countP_map, List.countP_map]
        have hsame : ms.countP (Parcel.refuses rd.nth ∘ (⟨p.nth, ·⟩)) =
            ms.countP (Entry.isRefused rd.nth ∘ (.served p.nth s.files.fileList ·)) := rfl
        have hrefused := hw.refused
        dsimp only
        rw [hsame]
        omega

theorem step (h : s.Kept disk) (e : Event) (hnew : NewId s e) : (s.step disk isFile e).Kept disk := by
  cases e with
  | read r sent =>
    unfold State.step
    cases hreading : s.reading with
    | some rd => exact h
    | none =>
      have hbegun : ∀ r, .asked s.count r ∉ s.log := fun r hr => Nat.lt_irrefl _ (h.begun _ r hr)
      have hcount : State.Kept disk { s with count := s.count + 1 } :=
        ⟨h.positioned, h.requests, h.responses, h.same, fun n r hr => Nat.lt_succ_of_lt (h.begun n r hr),
          fun rd hrd => (by rw [hreading] at hrd; cases hrd), h.sound⟩
      refine hcount.ask { nth := s.count, read := r } (Nat.lt_succ_self _)
        (fun r' hr' => absurd hr' (hbegun r')) (fun p hp hid => absurd hid (hnew hreading p hp))
        (countP_isAsked_zero hbegun) (Nat.zero_le _) ?_ sent
      have hnone : s.responses.countP (Parcel.refuses s.count) = 0 := by
        rw [List.countP_eq_zero]
        intro p hp hrefuses
        obtain ⟨r', -, hasked, -⟩ := h.responses p hp
        have hnth : p.nth = s.count := by
          rw [Parcel.refuses, Bool.and_eq_true, decide_eq_true_eq] at hrefuses
          exact hrefuses.1
        rw [hnth] at hasked
        exact hbegun r' hasked
      rw [hnone]
      exact Nat.zero_le _
  | recv sent => exact h.recv sent
  | timeout =>
    unfold State.step
    cases hreading : s.reading with
    | some rd =>
      have hw := h.waits rd hreading
      have htries := hw.tries
      have hbound := hw.bound
      exact h.finish rd ⟨fun _ heq => (by cases heq), by omega, fun heq => (by cases heq),
        fun heq => (by cases heq)⟩
    | none => exact h
  | serve connId io next => exact h.serve connId io next
  | syncFiles files firstFileIndex =>
    refine ⟨fun f hf => ?_, h.requests, h.responses, h.same, h.begun, fun rd hrd => ?_, h.sound⟩
    · obtain ⟨file, -, rfl⟩ := List.mem_map.mp hf
      rfl
    · obtain ⟨hasked, hapart, htries, hbound, hrefused⟩ := h.waits rd hrd
      exact ⟨hasked, hapart, htries, hbound, hrefused⟩
  | loseRequest i => exact h.fewer (List.eraseIdx_sublist _ _) (List.Sublist.refl _)
  | loseResponse i => exact h.fewer (List.Sublist.refl _) (List.eraseIdx_sublist _ _)

theorem start : ({} : State).Kept disk where
  positioned := fun _ hf => absurd hf List.not_mem_nil
  requests := fun _ hp => absurd hp List.not_mem_nil
  responses := fun _ hp => absurd hp List.not_mem_nil
  same := fun _ _ _ hr => absurd hr List.not_mem_nil
  begun := fun _ _ hr => absurd hr List.not_mem_nil
  waits := fun _ hrd => by cases hrd
  sound := trivial

end State.Kept

end

/-- However late, lost, refused or repeated the answers are, and whatever is copied meanwhile: a read gives
the bytes that were served for it, after four requests at most, and fails only unanswered or refused. -/
theorem fuse_reads (disk : FileData) (isFile : String → Bool) (es : List Event)
    (hnew : Guarded (State.step disk isFile) NewId {} es) :
    Throughout (State.step disk isFile) (fun s => Always (SoundEntry disk) s.log) {} es :=
  History.throughout_imp (fun _ h => h.sound)
    (History.throughout_of_guarded (fun _ e h hnew => h.step e hnew) State.Kept.start hnew)

/-- A read times out, and its answer comes while the next read waits for its own. -/
theorem fuse_reads_late :
    Throughout (State.step ⟨fun _ => [10, 20, 30, 40], by simp⟩ fun _ => true)
      (fun s => Always (SoundEntry ⟨fun _ => [10, 20, 30, 40], by simp⟩) s.log) {}
      [.syncFiles [("/a", 4, false)] 0, .read ⟨5, 0, 1, 2⟩ true, .timeout, .serve 1 {} {},
        .read ⟨6, 0, 2, 2⟩ true, .recv true, .serve 1 {} {}, .recv true] := by
  refine fuse_reads _ _ _ ⟨trivial, ?_, trivial, trivial, ?_, trivial, trivial, trivial, trivial⟩
  · intro _ p hp
    cases hp
  · intro _ p hp
    have hp : p = ⟨0, .fileContentsResponse 1 5 [20, 30]⟩ := List.mem_singleton.mp hp
    rw [hp]
    decide

end RustDesk.Clipboard.FuseReads
