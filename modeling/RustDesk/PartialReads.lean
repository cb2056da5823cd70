import Mathlib.Data.List.Basic

/-!
# A byte stream between a writer and a reader

The writer has buffers to write, one after the other, and each call takes a part of the first
one. The reader asks for a number of bytes that depends on its state, and each call brings it a
part of them; with the last part it goes on to its next state. A writer that fails loses what it
has not written.

What decides is where the bytes that are still to come lead the reader (`Link.Leads`): no call
on either side changes that.
-/

namespace PartialReads

variable {α σ : Type*}

/-- The bytes that a state asks for, and the state after them. -/
structure Reader (α σ : Type*) where
  want : σ → Nat
  take : σ → List α → σ

/-- A reader with the part that it has got of what it asks for. -/
structure Reading (α σ : Type*) where
  state : σ
  got : List α := []
  deriving DecidableEq

namespace Reader

variable (R : Reader α σ)

/-- A call has brought `chunk`. -/
def read (r : Reading α σ) (chunk : List α) : Reading α σ :=
  if (r.got ++ chunk).length = R.want r.state then { state := R.take r.state (r.got ++ chunk) }
  else { r with got := r.got ++ chunk }

/-- The reader after a stream that comes byte by byte. -/
def after (r : Reading α σ) (stream : List α) : Reading α σ :=
  stream.foldl (fun r b => R.read r [b]) r

variable {R} {r : Reading α σ} {s : σ} {chunk stream : List α}

@[simp] theorem after_nil : R.after r [] = r := rfl

theorem after_append (first second : List α) :
    R.after r (first ++ second) = R.after (R.after r first) second := List.foldl_append

/-- It does not matter in how many parts the bytes come that the reader asks for. -/
theorem read_eq_after (hchunk : chunk ≠ []) (hfits : r.got.length + chunk.length ≤ R.want r.state) :
    R.read r chunk = R.after r chunk := by
  induction chunk generalizing r with
  | nil => exact absurd rfl hchunk
  | cons b chunk ih =>
    by_cases hlast : chunk = []
    · rw [hlast]
      rfl
    · have hmore : 0 < chunk.length := List.length_pos_iff.mpr hlast
      rw [List.length_cons] at hfits
      have hpart : R.read r [b] = { r with got := r.got ++ [b] } := by
        apply if_neg
        rw [List.length_append, List.length_singleton]
        omega
      have hrest : R.read { r with got := r.got ++ [b] } chunk = R.read r (b :: chunk) := by
        simp only [read, List.append_assoc, List.singleton_append]
      have hnext : (r.got ++ [b]).length + chunk.length ≤ R.want r.state := by
        rw [List.length_append, List.length_singleton]
        omega
      calc R.read r (b :: chunk) = R.read (R.read r [b]) chunk := by rw [hpart, hrest]
        _ = R.after (R.read r [b]) chunk := by
          rw [hpart]
          exact ih hlast hnext
        _ = R.after r (b :: chunk) := rfl

theorem after_whole {bytes : List α} {next : σ} (hbytes : bytes ≠ [])
    (hwant : bytes.length = R.want s) (htake : R.take s bytes = next) (rest : List α) :
    R.after { state := s } (bytes ++ rest) = R.after { state := next } rest := by
  have hfits : ([] : List α).length + bytes.length ≤ R.want s := by
    rw [List.length_nil, Nat.zero_add]
    exact Nat.le_of_eq hwant
  rw [after_append, ← read_eq_after (r := { state := s }) hbytes hfits]
  have hread : R.read { state := s } bytes = { state := next } := by
    rw [← htake]
    exact if_pos hwant
  rw [hread]

/-- A relation that holds between a state and the next one holds along a stream. -/
theorem rel_after {P : σ → σ → Prop} (hrefl : ∀ s, P s s)
    (htrans : ∀ s t u, P s t → P t u → P s u) (hstep : ∀ s bytes, P s (R.take s bytes)) :
    P r.state (R.after r stream).state := by
  induction stream generalizing r with
  | nil => exact hrefl r.state
  | cons b stream ih =>
    refine htrans _ _ _ ?_ (ih (r := R.read r [b]))
    unfold read
    split_ifs
    · exact hstep _ _
    · exact hrefl _

end Reader

/-- One direction of a connection. -/
structure Link (α σ : Type*) where
  out : List (List α) := []
  flight : List α := []
  broken : Bool := false
  reader : Reading α σ

namespace Link

variable (l : Link α σ)

/-- The buffers of the calls that follow; an empty one makes no call. -/
def send (buffers : List (List α)) : Link α σ :=
  if l.broken then l else { l with out := l.out ++ buffers.filter (fun b => !b.isEmpty) }

/-- A call has taken `n` bytes of the first buffer. -/
def write (n : Nat) : Link α σ :=
  match l.out with
  | [] => l
  | b :: out =>
    { l with
      out := if n < b.length then b.drop n :: out else out
      flight := l.flight ++ b.take n }

/-- A call has failed. -/
def fail : Link α σ := { l with out := [], broken := true }

/-- A call has brought `n` bytes. -/
def read (R : Reader α σ) (n : Nat) : Link α σ :=
  { l with flight := l.flight.drop n, reader := R.read l.reader (l.flight.take n) }

def CanWrite (n : Nat) : Prop := ∃ b ∈ l.out.head?, 0 < n ∧ n ≤ b.length

def CanRead (R : Reader α σ) (n : Nat) : Prop :=
  0 < n ∧ n ≤ l.flight.length ∧ l.reader.got.length + n ≤ R.want l.reader.state

instance (n : Nat) : Decidable (l.CanWrite n) :=
  inferInstanceAs (Decidable (∃ b ∈ l.out.head?, _))

instance (R : Reader α σ) (n : Nat) : Decidable (l.CanRead R n) :=
  inferInstanceAs (Decidable (_ ∧ _))

/-- All that was sent has been read. -/
def Delivered : Prop := l.broken = false ∧ l.out = [] ∧ l.flight = []

/-- The bytes that are still to come lead the reader to a state, where it has nothing of the
next ones; only a writer that has failed holds some of them back. -/
def Leads (R : Reader α σ) (goal : σ) : Prop :=
  ∃ lost, (l.broken = false → lost = []) ∧
    R.after l.reader (l.flight ++ l.out.flatten ++ lost) = { state := goal }

variable {l} {R : Reader α σ} {goal : σ} {n : Nat}

theorem flatten_send (h : l.broken = false) (buffers : List (List α)) :
    (l.send buffers).out.flatten = l.out.flatten ++ buffers.flatten := by
  have hfilter : (buffers.filter (fun b => !b.isEmpty)).flatten = buffers.flatten :=
    List.flatten_filter_not_isEmpty
  simp only [send, h, Bool.false_eq_true, if_false, List.flatten_append, hfilter]

theorem Leads.send (hl : l.Leads R goal) (h : l.broken = false) {buffers : List (List α)} {goal' : σ}
    (hnext : R.after { state := goal } buffers.flatten = { state := goal' }) :
    (l.send buffers).Leads R goal' := by
  obtain ⟨lost, hlost, hafter⟩ := hl
  have hnone := hlost h
  subst hnone
  have hsend : l.send buffers = { l with out := (l.send buffers).out } := by
    simp only [Link.send, h, Bool.false_eq_true, if_false]
  refine ⟨[], fun _ => rfl, ?_⟩
  rw [flatten_send h, hsend]
  dsimp only
  rw [List.append_nil] at hafter ⊢
  rw [← List.append_assoc, Reader.after_append, hafter, hnext]

theorem Leads.write (hl : l.Leads R goal) (n : Nat) : (l.write n).Leads R goal := by
  obtain ⟨lost, hlost, hafter⟩ := hl
  unfold Link.write
  split
  · exact ⟨lost, hlost, hafter⟩
  · rename_i b out hout
    refine ⟨lost, hlost, ?_⟩
    have hflatten : b.take n ++ (if n < b.length then b.drop n :: out else out).flatten =
        (b :: out).flatten := by
      split_ifs with hn
      · rw [List.flatten_cons, List.flatten_cons, ← List.append_assoc, List.take_append_drop]
      · rw [List.take_of_length_le (Nat.le_of_not_lt hn), List.flatten_cons]
    dsimp only
    rw [List.append_assoc l.flight, hflatten, ← hout]
    exact hafter

theorem Leads.fail (hl : l.Leads R goal) : l.fail.Leads R goal := by
  obtain ⟨lost, -, hafter⟩ := hl
  refine ⟨l.out.flatten ++ lost, nofun, ?_⟩
  simp only [Link.fail, List.flatten_nil, List.append_nil]
  rw [← List.append_assoc]
  exact hafter

theorem Leads.read (hl : l.Leads R goal) (hn : l.CanRead R n) : (l.read R n).Leads R goal := by
  obtain ⟨lost, hlost, hafter⟩ := hl
  obtain ⟨hpos, hle, hfits⟩ := hn
  have hlength : (l.flight.take n).length = n := List.length_take_of_le hle
  have hchunk : l.flight.take n ≠ [] := by
    apply List.ne_nil_of_length_pos
    omega
  refine ⟨lost, hlost, ?_⟩
  have hread : R.read l.reader (l.flight.take n) = R.after l.reader (l.flight.take n) := by
    apply Reader.read_eq_after hchunk
    omega
  dsimp only [Link.read]
  rw [hread, ← Reader.after_append, List.append_assoc, ← List.append_assoc (l.flight.take n),
    List.take_append_drop, ← List.append_assoc]
  exact hafter

/-- What holds between a state and the next one holds between the reader's and the goal. -/
theorem Leads.rel (hl : l.Leads R goal) {P : σ → σ → Prop} (hrefl : ∀ s, P s s)
    (htrans : ∀ s t u, P s t → P t u → P s u) (hstep : ∀ s bytes, P s (R.take s bytes)) :
    P l.reader.state goal := by
  obtain ⟨lost, -, hafter⟩ := hl
  have hrel : P l.reader.state (R.after l.reader (l.flight ++ l.out.flatten ++ lost)).state :=
    Reader.rel_after hrefl htrans hstep
  rw [hafter] at hrel
  exact hrel

theorem Leads.reader_eq (hl : l.Leads R goal) (hd : l.Delivered) :
    l.reader = { state := goal } := by
  obtain ⟨lost, hlost, hafter⟩ := hl
  obtain ⟨hbroken, hout, hflight⟩ := hd
  rw [hlost hbroken, hout, hflight] at hafter
  exact hafter

/-- Two readers that ask for the same differ only in what they do with it. -/
theorem read_congr {T : Reader α σ} (hwant : T.want = R.want) (l : Link α σ) (n : Nat) :
    l.read T n = l.read R n ∨
      ∃ bytes, l.read T n = { l with
          flight := l.flight.drop n, reader := { state := T.take l.reader.state bytes } } ∧
        l.read R n = { l with
          flight := l.flight.drop n, reader := { state := R.take l.reader.state bytes } } := by
  by_cases hlast : (l.reader.got ++ l.flight.take n).length = R.want l.reader.state
  · refine Or.inr ⟨l.reader.got ++ l.flight.take n, ?_, ?_⟩
    · simp only [read, Reader.read, hwant, hlast, if_true]
    · simp only [read, Reader.read, hlast, if_true]
  · left
    simp only [read, Reader.read, hwant, hlast, if_false]

end Link

/-- A reader that makes calls with what it reads. It goes on as `ideal` does, unless it is
closed because a call has failed; `log` is what it has read, and it is idle between two
messages. -/
structure Receiver (α σ κ β : Type*) where
  ideal : Reader α σ
  take : κ → σ → List α → σ
  log : σ → List β
  Idle : σ → Prop
  Open : σ → Prop
  Rejected : σ → Prop
  want_closed : ∀ s, ¬ Open s → ideal.want s = 0
  want_take : ∀ s bytes, Open (ideal.take s bytes) → 0 < ideal.want (ideal.take s bytes)
  log_take : ∀ s bytes, log s <+: log (ideal.take s bytes)
  rejected_take : ∀ s bytes, Rejected s → Rejected (ideal.take s bytes)
  accepted_idle : ∀ s, Idle s → ¬ Rejected s
  take_or : ∀ k s bytes, take k s bytes = ideal.take s bytes ∨
    ¬ Open (take k s bytes) ∧ ¬ Rejected (take k s bytes) ∧
      log (take k s bytes) = log (ideal.take s bytes)

namespace Receiver

variable {κ β : Type*} (V : Receiver α σ κ β)

def reader (k : κ) : Reader α σ where
  want := V.ideal.want
  take := V.take k

/-- The receiver has read the first of the messages `sent`, and as long as it is open, the bytes
to come lead it to the last one. -/
structure InSync (l : Link α σ) (sent : List β) : Prop where
  buffers : ∀ b ∈ l.out, b ≠ []
  waits : V.Open l.reader.state → l.reader.got.length < V.ideal.want l.reader.state
  leads : V.Open l.reader.state → ∃ goal, l.Leads V.ideal goal ∧ V.Idle goal ∧ V.log goal = sent
  accepted : ¬ V.Rejected l.reader.state
  log_le : V.log l.reader.state <+: sent

variable {V} {l : Link α σ} {sent : List β}

theorem log_le_of_leads {goal : σ} (hl : l.Leads V.ideal goal) :
    V.log l.reader.state <+: V.log goal := by
  apply hl.rel (P := fun s t => V.log s <+: V.log t)
  · intro s
    exact List.prefix_refl _
  · intro s t u
    exact List.IsPrefix.trans
  · exact V.log_take

theorem accepted_of_leads {goal : σ} (hl : l.Leads V.ideal goal) (hgoal : V.Idle goal) :
    ¬ V.Rejected l.reader.state := by
  intro hrejected
  refine V.accepted_idle goal hgoal ?_
  apply hl.rel (P := fun s t => V.Rejected s → V.Rejected t)
  · intro s
    exact id
  · intro s t u hst htu
    exact htu ∘ hst
  · exact V.rejected_take
  · exact hrejected

/-- As long as the receiver is open, all follows from where it is led. -/
theorem InSync.of_leads {goal : σ} (hbuffers : ∀ b ∈ l.out, b ≠ [])
    (hwaits : V.Open l.reader.state → l.reader.got.length < V.ideal.want l.reader.state)
    (hl : l.Leads V.ideal goal) (hgoal : V.Idle goal) (hlog : V.log goal = sent) :
    V.InSync l sent where
  buffers := hbuffers
  waits := hwaits
  leads _ := ⟨goal, hl, hgoal, hlog⟩
  accepted := accepted_of_leads hl hgoal
  log_le := hlog ▸ log_le_of_leads hl

theorem mem_write {n : Nat} {b : List α} (hbuffers : ∀ b ∈ l.out, b ≠ []) (hb : b ∈ (l.write n).out) :
    b ≠ [] := by
  unfold Link.write at hb
  split at hb
  · exact hbuffers b hb
  · rename_i first out hout
    rw [hout] at hbuffers
    dsimp only at hb
    split_ifs at hb with hn
    · rcases List.mem_cons.mp hb with rfl | hb
      · apply List.ne_nil_of_length_pos
        rw [List.length_drop]
        omega
      · exact hbuffers b (List.mem_cons_of_mem _ hb)
    · exact hbuffers b (List.mem_cons_of_mem _ hb)

theorem reader_write (l : Link α σ) (n : Nat) : (l.write n).reader = l.reader := by
  unfold Link.write
  split <;> rfl

theorem InSync.write (h : V.InSync l sent) (n : Nat) : V.InSync (l.write n) sent where
  buffers _ := mem_write h.buffers
  waits := by
    rw [reader_write]
    exact h.waits
  leads hopen := by
    rw [reader_write] at hopen
    obtain ⟨goal, hl, hgoal, hlog⟩ := h.leads hopen
    exact ⟨goal, hl.write n, hgoal, hlog⟩
  accepted := by
    rw [reader_write]
    exact h.accepted
  log_le := by
    rw [reader_write]
    exact h.log_le

theorem InSync.fail (h : V.InSync l sent) : V.InSync l.fail sent where
  buffers := nofun
  waits := h.waits
  leads hopen := by
    obtain ⟨goal, hl, hgoal, hlog⟩ := h.leads hopen
    exact ⟨goal, hl.fail, hgoal, hlog⟩
  accepted := h.accepted
  log_le := h.log_le

theorem InSync.send (h : V.InSync l sent) (hbroken : l.broken = false) {buffers : List (List α)}
    {more : List β} (hnext : ∀ goal, V.Idle goal → ∃ goal',
      V.ideal.after { state := goal } buffers.flatten = { state := goal' } ∧ V.Idle goal' ∧
        V.log goal' = V.log goal ++ more) :
    V.InSync (l.send buffers) (sent ++ more) := by
  have hreader : (l.send buffers).reader = l.reader := by
    unfold Link.send
    split_ifs <;> rfl
  refine ⟨?_, ?_, ?_, ?_, ?_⟩
  · intro b hb
    simp only [Link.send, hbroken, Bool.false_eq_true, if_false, List.mem_append,
      List.mem_filter] at hb
    rcases hb with hb | ⟨-, hb⟩
    · exact h.buffers b hb
    · simpa using hb
  · rw [hreader]
    exact h.waits
  · rw [hreader]
    intro hopen
    obtain ⟨goal, hl, hgoal, hlog⟩ := h.leads hopen
    obtain ⟨goal', hafter, hgoal', hlog'⟩ := hnext goal hgoal
    refine ⟨goal', hl.send hbroken hafter, hgoal', ?_⟩
    rw [hlog', hlog]
  · rw [hreader]
    exact h.accepted
  · rw [hreader]
    exact h.log_le.trans (List.prefix_append _ _)

theorem open_of_canRead {n : Nat} (hn : l.CanRead V.ideal n) : V.Open l.reader.state := by
  by_contra hclosed
  obtain ⟨hpos, -, hfits⟩ := hn
  rw [V.want_closed _ hclosed] at hfits
  omega

theorem InSync.read_ideal (h : V.InSync l sent) {n : Nat} (hn : l.CanRead V.ideal n) :
    V.InSync (l.read V.ideal n) sent := by
  obtain ⟨goal, hl, hgoal, hlog⟩ := h.leads (open_of_canRead hn)
  refine InSync.of_leads h.buffers ?_ (hl.read hn) hgoal hlog
  intro hopen
  obtain ⟨-, hle, hfits⟩ := hn
  by_cases hlast : (l.reader.got ++ l.flight.take n).length = V.ideal.want l.reader.state
  · simp only [Link.read, Reader.read, hlast, if_true] at hopen ⊢
    exact V.want_take _ _ hopen
  · simp only [Link.read, Reader.read, hlast, if_false]
    rw [List.length_append, List.length_take_of_le hle] at hlast ⊢
    omega

theorem InSync.read (h : V.InSync l sent) (k : κ) {n : Nat} (hn : l.CanRead (V.reader k) n) :
    V.InSync (l.read (V.reader k) n) sent := by
  have hideal := h.read_ideal hn
  rcases Link.read_congr (T := V.reader k) (R := V.ideal) rfl l n with heq | ⟨bytes, heq, hideq⟩
  · rw [heq]
    exact hideal
  · rcases V.take_or k l.reader.state bytes with hsame | ⟨hclosed, haccepted, hlog⟩
    · have hread : l.read (V.reader k) n = l.read V.ideal n := by
        rw [heq, hideq]
        exact congrArg (fun s => { l with flight := l.flight.drop n, reader := { state := s } }) hsame
      rw [hread]
      exact hideal
    · rw [heq]
      refine ⟨h.buffers, fun hopen => absurd hopen hclosed, fun hopen => absurd hopen hclosed,
        haccepted, ?_⟩
      have hlog_le := hideal.log_le
      rw [hideq] at hlog_le
      change V.log (V.take k l.reader.state bytes) <+: sent
      rw [hlog]
      exact hlog_le

theorem InSync.stop (h : V.InSync l sent) {s : σ} (hclosed : ¬ V.Open s)
    (haccepted : ¬ V.Rejected s) (hlog : V.log s = V.log l.reader.state) :
    V.InSync { l with reader := { state := s } } sent where
  buffers := h.buffers
  waits hopen := absurd hopen hclosed
  leads hopen := absurd hopen hclosed
  accepted := haccepted
  log_le := hlog ▸ h.log_le

theorem InSync.log_eq (h : V.InSync l sent) (hopen : V.Open l.reader.state) (hd : l.Delivered) :
    V.log l.reader.state = sent := by
  obtain ⟨goal, hl, -, hlog⟩ := h.leads hopen
  rw [hl.reader_eq hd]
  exact hlog

theorem InSync.progress (h : V.InSync l sent) (hopen : V.Open l.reader.state)
    (hbroken : l.broken = false) (k : κ) :
    l.Delivered ∨ l.CanWrite 1 ∨ l.CanRead (V.reader k) 1 := by
  by_cases hflight : l.flight = []
  · cases hout : l.out with
    | nil => exact Or.inl ⟨hbroken, hout, hflight⟩
    | cons b out =>
      have hb : b ≠ [] := h.buffers b (hout ▸ List.mem_cons_self)
      refine Or.inr (Or.inl ⟨b, ?_, Nat.one_pos, List.length_pos_iff.mpr hb⟩)
      rw [hout]
      rfl
  · refine Or.inr (Or.inr ⟨Nat.one_pos, List.length_pos_iff.mpr hflight, ?_⟩)
    exact h.waits hopen

end Receiver

end PartialReads
