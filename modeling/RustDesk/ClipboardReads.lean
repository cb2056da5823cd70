import RustDesk.ClipboardFiles

/-!
# What is read of a clipboard file

The reader of a file remembers where it stands, so that ranges one behind the other are read
without a seek. Whatever fails in between, the place that is remembered is the one the reader has,
and a range that is read is the range of the file.

The fields of a request are of 32 bits with a sign and are widened to 64 bits. A negative length
becomes a length close to 2⁶⁴, and the sum with the offset leaves the 64 bits.
-/

namespace RustDesk.Clipboard

open History (run Guarded Throughout throughout_of_guarded guarded_of_inv guarded_of_forall)

namespace LocalFile

/-- A range is read into a buffer of `n` bytes, or the file is opened for a read to come. -/
inductive Access
  | read (io : FileIo) (n : Nat) (offset : BitVec 64)
  | load (io : FileIo)
  deriving DecidableEq, Repr

def access (data : Bytes) (f : LocalFile) : Access → LocalFile
  | .read io n offset => (f.readExactAt data io n offset.toNat).1
  | .load io => (f.loadHandle io).1

/-- Without a reader the place is zero, and a reader stands at the place. -/
structure InPlace (f : LocalFile) : Prop where
  closed : f.handle = none → f.offset = 0
  opened : ∀ pos, f.handle = some pos → pos = f.offset

theorem inPlace_iff {f : LocalFile} : f.InPlace ↔ f.Positioned := by
  unfold Positioned
  constructor
  · rintro ⟨hclosed, hopened⟩
    cases hh : f.handle with
    | none => exact (hclosed hh).symm
    | some pos => exact hopened pos hh
  · intro h
    constructor
    · intro hh
      rw [hh] at h
      exact h.symm
    · intro pos hh
      rw [hh] at h
      exact h

theorem access_inPlace (disk : FileData) (path : String) {f : LocalFile} (h : f.InPlace) (a : Access) :
    (f.access (disk.data path) a).InPlace := by
  rw [inPlace_iff] at h ⊢
  cases a with
  | read io n offset => exact (readExactAt_kept (disk.bounded path) io n offset.isLt f).positioned h
  | load io => exact (loadHandle_kept io f).positioned h

/-- The steps of a read that succeeds. -/
theorem readExactAt_steps {data buf : Bytes} {io : FileIo} {n offset : Nat} {f : LocalFile}
    (hok : (f.readExactAt data io n offset).2 = .ok buf) :
    ∃ pos p, (f.loadHandle io).1.handle = some pos ∧
      (f.loadHandle io).1.seekTo io offset pos = .ok p ∧ readExact data io p n = .ok buf := by
  unfold readExactAt at hok
  generalize f.loadHandle io = r at hok ⊢
  obtain ⟨g, e | u⟩ := r
  · cases hok
  · dsimp only at hok ⊢
    cases hh : g.handle with
    | none =>
      rw [hh] at hok
      cases hok
    | some pos =>
      rw [hh] at hok
      dsimp only at hok
      cases hs : g.seekTo io offset pos with
      | error e =>
        rw [hs] at hok
        cases hok
      | ok p =>
        rw [hs] at hok
        dsimp only at hok
        cases hr : readExact data io p n with
        | error e =>
          rw [hr] at hok
          cases hok
        | ok bytes =>
          rw [hr] at hok
          have hbuf : bytes = buf := by
            dsimp only at hok
            split_ifs at hok <;> exact Except.ok.inj hok
          exact ⟨pos, p, rfl, hs, hbuf ▸ hr⟩

/-- A read that succeeds gives the bytes at the offset. -/
theorem readExactAt_sound {data buf : Bytes} {io : FileIo} {n offset : Nat} {f : LocalFile}
    (h : f.Positioned) (hok : (f.readExactAt data io n offset).2 = .ok buf) :
    buf = (data.drop offset).take n ∧ buf.length = n := by
  have hload := (loadHandle_kept io f).positioned h
  obtain ⟨pos, p, hh, hs, hr⟩ := readExactAt_steps hok
  unfold Positioned at hload
  rw [hh] at hload
  obtain rfl := seekTo_eq hload hs
  obtain ⟨hlen, rfl⟩ := readExact_eq hr
  refine ⟨rfl, ?_⟩
  rw [List.length_take, List.length_drop]
  omega

/-- It never gives more than the buffer holds. -/
theorem readExactAt_length {data buf : Bytes} {io : FileIo} {n offset : Nat} {f : LocalFile}
    (hok : (f.readExactAt data io n offset).2 = .ok buf) : buf.length ≤ n := by
  obtain ⟨pos, p, -, -, hr⟩ := readExactAt_steps hok
  obtain ⟨-, rfl⟩ := readExact_eq hr
  exact List.length_take_le n _

/-- A file as `try_open` makes it. -/
def listed (path : String) (size : Nat) (isDir : Bool) : LocalFile := { path, size, isDir }

/-- Whatever is read of a file that stays as it is, and whatever fails: the reader is always in its
place, and what is read is what the file has there. -/
theorem local_file_reads (disk : FileData) (path : String) (size : Nat) (isDir : Bool)
    (accesses : List Access) :
    Throughout (access (disk.data path)) InPlace (listed path size isDir) accesses ∧
      Guarded (access (disk.data path)) (fun f a => ∀ io n offset buf, a = .read io n offset →
        (f.readExactAt (disk.data path) io n offset.toNat).2 = .ok buf →
          buf = ((disk.data path).drop offset.toNat).take n ∧ buf.length = n)
        (listed path size isDir) accesses := by
  have hstart : (listed path size isDir).InPlace := ⟨fun _ => rfl, nofun⟩
  have hall : Guarded (access (disk.data path)) (fun _ _ => True) (listed path size isDir) accesses :=
    guarded_of_forall fun _ _ => trivial
  have hstep : ∀ f a, InPlace f → True → (f.access (disk.data path) a).InPlace :=
    fun f a hf _ => access_inPlace disk path hf a
  refine ⟨throughout_of_guarded hstep hstart hall, guarded_of_inv hstep ?_ hstart hall⟩
  rintro f a hf - io n offset buf rfl hok
  exact readExactAt_sound (inPlace_iff.mp hf) hok

end LocalFile

namespace ClipFiles

/-! ### Requests with any fields -/

/-- The fields that a peer chooses. -/
structure Fields where
  connId : BitVec 32
  streamId : BitVec 32
  listIndex : BitVec 32
  dwFlags : BitVec 32
  nPositionLow : BitVec 32
  nPositionHigh : BitVec 32
  cbRequested : BitVec 32
  deriving DecidableEq, Repr

namespace Fields

variable (m : Fields)

def fileIdx : Nat := (asU64 m.listIndex).toNat

def offset : Nat := ((asU64 m.nPositionHigh <<< 32) ||| asU64 m.nPositionLow).toNat

def length : Nat := (asU64 m.cbRequested).toNat

def request : Option FileContentsRequest :=
  contentsRequest m.streamId m.listIndex m.dwFlags m.nPositionLow m.nPositionHigh m.cbRequested

def answers (disk : FileData) (isFile : String → Bool) (io next : FileIo) (s : ClipFiles) :
    ClipFiles × List Reply :=
  s.readFileContents disk isFile io next m.connId m.streamId m.listIndex m.dwFlags m.nPositionLow
    m.nPositionHigh m.cbRequested

/-- The file of a range, if the request comes to the point where a buffer is made for it. -/
def reaches (s : ClipFiles) : Option LocalFile :=
  if m.dwFlags = 0x2 then s.fileList[m.fileIdx]?.filter (m.offset ≤ ·.size) else none

/-- The sums of `u64` that are made there, and in `read_exact_at`. -/
def sums (f : LocalFile) : List Nat :=
  [m.offset + m.length, m.offset + readSize f.size m.offset m.length]

/-- The bytes of the contents in an answer. -/
def contents : Reply → Option Bytes
  | .answer (.ok (.fileContentsResponse _ _ data)) => some data
  | _ => none

/-- The flag, the index or the offset is out of range. -/
def Invalid (s : ClipFiles) : Prop :=
  (m.dwFlags ≠ 0x1 ∧ m.dwFlags ≠ 0x2) ∨ s.fileList[m.fileIdx]? = none ∨
    (m.dwFlags = 0x2 ∧ ∃ f, s.fileList[m.fileIdx]? = some f ∧ f.size < m.offset)

/-- The files stay as they are and the answer is an error, without contents. The list of the files
for the audit may come before it. -/
def Refused (s : ClipFiles) (r : ClipFiles × List Reply) : Prop :=
  r.1 = s ∧ (∃ e, r.2.getLast? = some (.answer (.error e))) ∧ ∀ a ∈ r.2, contents a = none

/-- What a request may cost: no sum wraps, the buffer and what is read are no longer than the file
behind the offset and than the length that was asked for, which is below 2³¹, nothing panics, and
what is out of range is refused. -/
structure Contained (disk : FileData) (isFile : String → Bool) (s : ClipFiles) (m : Fields) : Prop where
  noWrap : ∀ f, m.reaches s = some f → ∀ n ∈ m.sums f, n < 2 ^ 64
  buffer : ∀ f, m.reaches s = some f →
    readSize f.size m.offset m.length ≤ min (f.size - m.offset) m.length ∧ m.length ≤ 2 ^ 31 - 1
  noPanic : ∀ io next, Reply.panic ∉ (m.answers disk isFile io next s).2
  read : ∀ f, m.reaches s = some f → ∀ io next, ∀ r ∈ (m.answers disk isFile io next s).2,
    ∀ data ∈ contents r, data.length ≤ min (f.size - m.offset) m.length
  refused : m.Invalid s → ∀ io next, Refused s (m.answers disk isFile io next s)

variable {m} {disk : FileData} {isFile : String → Bool} {io next : FileIo} {s : ClipFiles}

/-- Widening keeps a number that is not negative, and puts a negative one close to 2⁶⁴. -/
theorem length_le_iff : m.length ≤ 2 ^ 31 - 1 ↔ 0 ≤ m.cbRequested.toInt := by
  unfold length asU64
  rw [BitVec.toNat_signExtend, BitVec.toInt_eq_msb_cond]
  have hlt := m.cbRequested.isLt
  cases hmsb : m.cbRequested.msb with
  | false =>
    rw [BitVec.msb_eq_false_iff_two_mul_lt] at hmsb
    simp
    omega
  | true =>
    rw [BitVec.msb_eq_true_iff_two_mul_ge] at hmsb
    simp
    omega

theorem reaches_eq_some {f : LocalFile} :
    m.reaches s = some f ↔ m.dwFlags = 0x2 ∧ s.fileList[m.fileIdx]? = some f ∧ m.offset ≤ f.size := by
  unfold reaches
  split_ifs with hflag
  · simp [hflag, Option.filter_eq_some_iff]
  · simp only [hflag, false_and]

theorem readSize_le {size offset length : Nat} (hwrap : offset + length < 2 ^ 64) :
    readSize size offset length = min (size - offset) length := by
  unfold readSize
  rw [Nat.mod_eq_of_lt hwrap]
  split_ifs
  · omega
  · omega

/-! What comes back to a request. -/

theorem answers_of_flag (h1 : m.dwFlags ≠ 0x1) (h2 : m.dwFlags ≠ 0x2) :
    ∃ e, m.answers disk isFile io next s = (s, [.answer (.error e)]) := by
  unfold answers readFileContents contentsRequest
  rw [if_neg h1, if_neg h2]
  exact ⟨_, rfl⟩

theorem answers_of_request {request : FileContentsRequest} (h : m.request = some request) :
    m.answers disk isFile io next s =
      ((s.serveFileContents disk io next m.connId request).1,
        ((s.getFilesForAudit isFile request).map fun c => Reply.answer (.ok c)).toList ++
          [(s.serveFileContents disk io next m.connId request).2]) := by
  unfold Fields.request at h
  unfold answers readFileContents
  rw [h]

theorem getFilesForAudit_files {request : FileContentsRequest} {c : ClipboardFile}
    (h : s.getFilesForAudit isFile request = some c) : ∃ files, c = .files files := by
  unfold getFilesForAudit at h
  split at h
  · cases h
  · dsimp only at h
    split_ifs at h
    exact ⟨_, (Option.some.inj h).symm⟩

/-- The answers are an error, or what the files are served with behind what is for the audit. -/
theorem mem_answers {r : Reply} (h : r ∈ (m.answers disk isFile io next s).2) :
    (contents r = none ∧ r ≠ .panic) ∨
      ∃ request, m.request = some request ∧ r = (s.serveFileContents disk io next m.connId request).2 := by
  cases hreq : m.request with
  | none =>
    left
    unfold Fields.request at hreq
    unfold answers readFileContents at h
    rw [hreq] at h
    obtain rfl := List.mem_singleton.mp h
    exact ⟨rfl, nofun⟩
  | some request =>
    rw [answers_of_request hreq, List.mem_append, Option.mem_toList, Option.map_eq_some_iff,
      List.mem_singleton] at h
    obtain ⟨c, hc, rfl⟩ | hr := h
    · obtain ⟨files, rfl⟩ := getFilesForAudit_files hc
      exact .inl ⟨rfl, nofun⟩
    · exact .inr ⟨request, rfl, hr⟩

theorem hotReload_reply (io : FileIo) (fileIdx : Nat) (resp : ClipboardFile) (s : ClipFiles) :
    (s.hotReload io fileIdx resp).2 = .answer (.ok resp) ∨
      ∃ e, (s.hotReload io fileIdx resp).2 = .answer (.error e) := by
  unfold hotReload
  generalize reloadNext io (s.fileList.drop (fileIdx + 1)) = r
  obtain ⟨fs, e | u⟩ := r
  · exact .inr ⟨e, rfl⟩
  · exact .inl rfl

theorem serveFileContents_size (connId streamId : BitVec 32) (fileIdx : Nat) :
    (s.serveFileContents disk io next connId (.size streamId fileIdx)).2 ≠ .panic := by
  unfold serveFileContents
  dsimp only
  cases s.fileList[fileIdx]? with
  | none => exact nofun
  | some file =>
    dsimp only
    obtain h | ⟨e, h⟩ := hotReload_reply next fileIdx
      (.fileContentsResponse 1 streamId (toLeBytes 8 file.size)) s
    · rw [h]
      exact nofun
    · rw [h]
      exact nofun

theorem serveFileContents_range {f : LocalFile} {connId streamId : BitVec 32}
    {fileIdx offset length : Nat} (hf : s.fileList[fileIdx]? = some f) (hoff : offset ≤ f.size)
    (hsize : readSize f.size offset length ≤ isizeMax) {r : Reply}
    (hr : r = (s.serveFileContents disk io next connId (.range streamId fileIdx offset length)).2) :
    r ≠ .panic ∧ ∀ data ∈ contents r, data.length ≤ readSize f.size offset length := by
  unfold serveFileContents at hr
  dsimp only at hr
  rw [hf] at hr
  dsimp only at hr
  rw [if_neg (Nat.not_lt.mpr hoff), if_neg (Nat.not_lt.mpr hsize)] at hr
  generalize hread : f.readExactAt (disk.data f.path) io (readSize f.size offset length) offset = q at hr
  obtain ⟨g, e | buf⟩ := q
  · subst hr
    exact ⟨nofun, nofun⟩
  · have hlen : buf.length ≤ readSize f.size offset length :=
      LocalFile.readExactAt_length (by rw [hread])
    dsimp only at hr
    obtain h | ⟨e, h⟩ := hotReload_reply next fileIdx (.fileContentsResponse 1 streamId buf)
      { s with fileList := s.fileList.set fileIdx g }
    · rw [hr, h]
      refine ⟨nofun, ?_⟩
      rintro data hdata
      obtain rfl := Option.some.inj hdata
      exact hlen
    · rw [hr, h]
      exact ⟨nofun, nofun⟩

theorem request_of_size (h : m.dwFlags = 0x1) : m.request = some (.size m.streamId m.fileIdx) :=
  if_pos h

theorem request_of_range (h : m.dwFlags = 0x2) :
    m.request = some (.range m.streamId m.fileIdx m.offset m.length) := by
  unfold Fields.request contentsRequest
  rw [if_neg (by rw [h]; decide), if_pos h]
  rfl

theorem request_cases {request : FileContentsRequest} (h : m.request = some request) :
    (m.dwFlags = 0x1 ∧ request = .size m.streamId m.fileIdx) ∨
      (m.dwFlags = 0x2 ∧ request = .range m.streamId m.fileIdx m.offset m.length) := by
  by_cases h1 : m.dwFlags = 0x1
  · rw [request_of_size h1] at h
    exact .inl ⟨h1, (Option.some.inj h).symm⟩
  · by_cases h2 : m.dwFlags = 0x2
    · rw [request_of_range h2] at h
      exact .inr ⟨h2, (Option.some.inj h).symm⟩
    · unfold Fields.request contentsRequest at h
      rw [if_neg h1, if_neg h2] at h
      cases h

theorem refused_of_serve {request : FileContentsRequest} {e : CliprdrError}
    (hreq : m.request = some request)
    (hserve : s.serveFileContents disk io next m.connId request = (s, .answer (.error e))) :
    Refused s (m.answers disk isFile io next s) := by
  refine ⟨?_, ⟨e, ?_⟩, fun r hr => ?_⟩
  · rw [answers_of_request hreq, hserve]
  · rw [answers_of_request hreq, hserve]
    exact List.getLast?_concat
  · obtain ⟨hnone, -⟩ | ⟨request', hreq', rfl⟩ := mem_answers hr
    · exact hnone
    · obtain rfl := Option.some.inj (hreq.symm.trans hreq')
      rw [hserve]
      rfl

theorem serveFileContents_no_file {connId streamId : BitVec 32} {fileIdx : Nat}
    (h : s.fileList[fileIdx]? = none) :
    ∃ e, s.serveFileContents disk io next connId (.size streamId fileIdx) = (s, .answer (.error e)) := by
  unfold serveFileContents
  dsimp only
  rw [h]
  exact ⟨_, rfl⟩

theorem serveFileContents_out_of_range {connId streamId : BitVec 32} {fileIdx offset length : Nat}
    (h : ∀ f, s.fileList[fileIdx]? = some f → f.size < offset) :
    ∃ e, s.serveFileContents disk io next connId (.range streamId fileIdx offset length) =
      (s, .answer (.error e)) := by
  unfold serveFileContents
  dsimp only
  cases hf : s.fileList[fileIdx]? with
  | none => exact ⟨_, rfl⟩
  | some f =>
    dsimp only
    rw [if_pos (h f hf)]
    exact ⟨_, rfl⟩

theorem refused_of_invalid (h : m.Invalid s) : Refused s (m.answers disk isFile io next s) := by
  by_cases h1 : m.dwFlags = 0x1
  · have hnone : s.fileList[m.fileIdx]? = none := by
      obtain ⟨hflag, -⟩ | hnone | ⟨h2, -⟩ := h
      · exact absurd h1 hflag
      · exact hnone
      · rw [h1] at h2
        cases h2
    obtain ⟨e, he⟩ := serveFileContents_no_file hnone
    exact refused_of_serve (request_of_size h1) he
  · by_cases h2 : m.dwFlags = 0x2
    · have hrange : ∀ f, s.fileList[m.fileIdx]? = some f → f.size < m.offset := by
        intro f hf
        obtain ⟨-, hflag⟩ | hnone | ⟨-, g, hg, hoff⟩ := h
        · exact absurd h2 hflag
        · rw [hnone] at hf
          cases hf
        · rw [hg] at hf
          exact Option.some.inj hf ▸ hoff
      obtain ⟨e, he⟩ := serveFileContents_out_of_range hrange
      exact refused_of_serve (request_of_range h2) he
    · have hanswers : ∃ e, m.answers disk isFile io next s = (s, [.answer (.error e)]) :=
        answers_of_flag h1 h2
      obtain ⟨e, he⟩ := hanswers
      rw [he]
      refine ⟨rfl, ⟨e, rfl⟩, fun r hr => ?_⟩
      obtain rfl := List.mem_singleton.mp hr
      rfl

/-- Whatever a range that is read is answered with. -/
theorem answers_reached {f : LocalFile} {r : Reply} (hf : m.reaches s = some f)
    (hsize : readSize f.size m.offset m.length ≤ isizeMax)
    (hr : r ∈ (m.answers disk isFile io next s).2) :
    r ≠ .panic ∧ ∀ data ∈ contents r, data.length ≤ readSize f.size m.offset m.length := by
  obtain ⟨h2, hfile, hoff⟩ := reaches_eq_some.mp hf
  obtain ⟨hnone, hpanic⟩ | ⟨request, hreq, hserve⟩ := mem_answers hr
  · refine ⟨hpanic, ?_⟩
    rw [hnone]
    exact nofun
  · rw [request_of_range h2] at hreq
    obtain rfl := Option.some.inj hreq
    exact serveFileContents_range hfile hoff hsize hserve

theorem answers_not_reached (hf : m.reaches s = none) :
    Reply.panic ∉ (m.answers disk isFile io next s).2 := by
  intro hpanic
  obtain ⟨-, hne⟩ | ⟨request, hreq, hserve⟩ := mem_answers hpanic
  · exact hne rfl
  · obtain ⟨-, rfl⟩ | ⟨h2, rfl⟩ := request_cases hreq
    · exact serveFileContents_size _ _ _ hserve.symm
    · have hrange : ∀ f, s.fileList[m.fileIdx]? = some f → f.size < m.offset := by
        intro f hfile
        by_contra hoff
        rw [reaches_eq_some.mpr ⟨h2, hfile, Nat.not_lt.mp hoff⟩] at hf
        cases hf
      obtain ⟨e, he⟩ := serveFileContents_out_of_range hrange
      rw [he] at hserve
      cases hserve

theorem contained_iff : Contained disk isFile s m ↔
    ∀ f, m.reaches s = some f → m.length ≤ 2 ^ 31 - 1 ∧ m.offset + m.length < 2 ^ 64 := by
  constructor
  · intro h f hf
    exact ⟨(h.buffer f hf).2, h.noWrap f hf _ List.mem_cons_self⟩
  · intro h
    have hsize : ∀ f, m.reaches s = some f →
        readSize f.size m.offset m.length = min (f.size - m.offset) m.length :=
      fun f hf => readSize_le (h f hf).2
    have hmax : ∀ f, m.reaches s = some f → readSize f.size m.offset m.length ≤ isizeMax := by
      intro f hf
      have := (h f hf).1
      rw [hsize f hf]
      unfold isizeMax
      omega
    constructor
    · intro f hf n hn
      have := (h f hf).2
      obtain ⟨-, -, hoff⟩ := reaches_eq_some.mp hf
      simp only [sums, List.mem_cons, List.not_mem_nil, or_false, hsize f hf] at hn
      omega
    · intro f hf
      exact ⟨(hsize f hf).le, (h f hf).1⟩
    · intro io next hpanic
      cases hf : m.reaches s with
      | none => exact answers_not_reached hf hpanic
      | some f => exact (answers_reached hf (hmax f hf) hpanic).1 rfl
    · intro f hf io next r hr data hdata
      rw [← hsize f hf]
      exact (answers_reached hf (hmax f hf) hr).2 data hdata
    · intro hinv io next
      exact refused_of_invalid hinv

/-- With the files of a file system, whose sizes have 63 bits, only a negative length does harm, and
it always does where a range is read. -/
theorem file_requests_contained (disk : FileData) (isFile : String → Bool) (s : ClipFiles)
    (hsizes : ∀ f ∈ s.fileList, f.size < 2 ^ 63) (m : Fields) :
    Contained disk isFile s m ↔ ((m.reaches s).isSome → 0 ≤ m.cbRequested.toInt) := by
  rw [contained_iff, ← length_le_iff]
  constructor
  · intro h hsome
    obtain ⟨f, hf⟩ := Option.isSome_iff_exists.mp hsome
    exact (h f hf).1
  · intro h f hf
    have hlen := h (Option.isSome_iff_exists.mpr ⟨f, hf⟩)
    obtain ⟨-, hfile, hoff⟩ := reaches_eq_some.mp hf
    have hsize := hsizes f (List.mem_of_getElem? hfile)
    exact ⟨hlen, by omega⟩

/-- A directory and a file of ten bytes, of which six are asked for from the fifth on. -/
theorem file_requests_contained_tail :
    Contained ⟨fun _ => List.replicate 10 7, by simp⟩ (fun _ => true)
      ⟨[⟨"/d", 0, true, none, 0⟩, ⟨"/d/f", 10, false, none, 0⟩], 1⟩ ⟨3, 4, 1, 2, 4, 0, 6⟩ := by
  apply (file_requests_contained _ _ _ ?_ _).mpr
  · intro _
    decide
  · intro f hf
    simp only [List.mem_cons, List.not_mem_nil, or_false] at hf
    obtain rfl | rfl := hf <;> decide

/-- A length of −1 behind the first byte: the sum wraps, the buffer would have 2⁶⁴ − 1 bytes. -/
theorem negative_length_panics :
    ¬ Contained ⟨fun _ => List.replicate 10 7, by simp⟩ (fun _ => true)
      ⟨[⟨"/f", 10, false, none, 0⟩], 0⟩ ⟨3, 4, 0, 2, 1, 0, -1⟩ := by
  intro h
  have hpanic := h.noPanic {} {}
  revert hpanic
  decide +kernel

end Fields

end ClipFiles

end RustDesk.Clipboard
