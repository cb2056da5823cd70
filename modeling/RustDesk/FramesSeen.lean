import RustDesk.FrameCounters
import RustDesk.History

/-!
# Frames that are seen once

Over all orders of the steps of the two threads: which frames the looks of the reader show. The counter
of the writer has `2 ^ 31` values, and `increase_counter` means to keep it apart from the one of the
reader when it comes round, but does not look at that one. So a frame is missed exactly when it is
published while `2 ^ 31 - 1` others are not acknowledged. The loop that captures waits for the reader, and
there each frame is shown by itself.
-/

namespace RustDesk.PortableService

open SharedWords
open History (run Guarded Throughout Always)

/-! ### What the reader is shown -/

/-- How much the reader has been shown. -/
def lastShown : List Look → Nat
  | [] => 0
  | l :: before => if l.ready then l.shown else lastShown before

/-- The look shows the `k`-th frame as new, alone or with those around it. -/
def Look.Shows (l : Look) (before : List Look) (k : Nat) : Prop :=
  l.ready = true ∧ lastShown before < k ∧ k ≤ l.shown

instance (l : Look) (before : List Look) (k : Nat) : Decidable (l.Shows before k) :=
  inferInstanceAs (Decidable (_ ∧ _ ∧ _))

def timesShown (k : Nat) : List Look → Nat
  | [] => 0
  | l :: before => (if l.Shows before k then 1 else 0) + timesShown k before

/-- While a frame is not acknowledged the counters differ. A look says that there is something new
only when there is, no frame is shown twice, and one that was published before a look began has been
shown once when the look has ended. -/
structure SeenOnce (counter : Nat) (s : State) : Prop where
  acknowledged_le : s.shared.acknowledged ≤ s.shared.published
  differ : s.shared.acknowledged < s.shared.published → s.shared.memory counter ≠ s.shared.memory (counter + 4)
  fresh : Always (fun l before => l.ready = true → ∃ k ≤ s.shared.published, l.Shows before k) s.looks
  atMostOnce : ∀ k, timesShown k s.looks ≤ 1
  seen : ∀ l ∈ s.looks, ∀ k, 0 < k → k ≤ l.began → timesShown k s.looks = 1

/-- When the writer is about to store its counter, less than `2 ^ 31 - 1` frames are not acknowledged. -/
def InTime (s : State) : Event → Prop
  | .writer _ =>
    match s.writer with
    | .store _ _ _ => s.shared.published + 1 < s.shared.acknowledged + 2 ^ 31
    | _ => True
  | .reader => True

instance (s : State) (e : Event) : Decidable (InTime s e) :=
  match e with
  | .writer round =>
    match hw : s.writer with
    | .store _ _ _ => decidable_of_iff (s.shared.published + 1 < s.shared.acknowledged + 2 ^ 31) (by simp [InTime, hw])
    | .load _ _ => .isTrue (by simp [InTime, hw])
    | .ret _ => .isTrue (by simp [InTime, hw])
  | .reader => .isTrue trivial

/-! ### Runs -/

def Look.Right (waits : Bool) (l : Look) (before : List Look) : Prop :=
  if l.ready then
    l.began ≤ l.shown ∧ lastShown before < l.shown ∧ l.shown < lastShown before + room waits
  else l.began ≤ lastShown before

/-- In the loop that captures, while it uses one capturer: the first frame is not waited for, and each
later one is. -/
def Waits (s : State) : Event → Prop
  | .writer round =>
    match s.writer with
    | .ret () => (∃ frame, round = .capture true frame) ∨ s.shared.published = 0
    | _ => True
  | .reader => True

instance (s : State) (e : Event) : Decidable (Waits s e) :=
  match e with
  | .writer round =>
    match hw : s.writer with
    | .ret () =>
      decidable_of_iff ((∃ frame, round = .capture true frame) ∨ s.shared.published = 0) (by simp [Waits, hw])
    | .load _ _ => .isTrue (by simp [Waits, hw])
    | .store _ _ _ => .isTrue (by simp [Waits, hw])
  | .reader => .isTrue trivial

structure Inv (counter : Nat) (waits : Bool) (s : State) : Prop where
  counted : s.shared.Counted counter (room waits)
  writer : (writerContract counter waits).Meets (fun _ _ => True) s.writer s.shared
  idle : s.call = none → s.shared.acknowledged = lastShown s.looks
  call : ∀ c ∈ s.call,
    (readerContract counter waits).Meets (Answered waits c.began (lastShown s.looks)) c.prog s.shared
  looks : Always (Look.Right waits) s.looks
  shown_le : ∀ l ∈ s.looks, l.shown ≤ s.shared.published

section Steps

variable {counter : Nat} {waits : Bool} {s : State}

theorem inv_start (counter : Nat) (waits : Bool) : Inv counter waits .start where
  counted :=
    { write := rfl
      read := rfl
      acknowledged_le := Nat.le_refl 0
      loaded_le := Nat.le_refl 0
      lt := by cases waits <;> decide }
  writer := fun _ _ => trivial
  idle := fun _ => rfl
  call := by simp [State.start]
  looks := trivial
  shown_le := by simp [State.start]

theorem inv_writer (h : Inv counter waits s) {round : Round}
    (hwait : waits = true → Waits s (.writer round)) (htime : waits = false → InTime s (.writer round)) :
    Inv counter waits (s.step counter (.writer round)) := by
  have hwriter := h.writer
  cases hw : s.writer with
  | ret _ =>
    have hround : (writerContract counter waits).Meets (fun _ _ => True) (round.prog counter) s.shared := by
      refine round_meets h.counted fun hwaits => ?_
      have hstart := hwait hwaits
      simp only [Waits, hw] at hstart
      have hle := h.counted.acknowledged_le_published
      exact hstart.imp_right fun hzero => by omega
    simp only [State.step, hw]
    exact ⟨h.counted, hround, h.idle, h.call, h.looks, h.shown_le⟩
  | load p k =>
    rw [hw] at hwriter
    simp only [State.step, hw]
    exact ⟨h.counted, hwriter s.shared (Contract.rely_refl _ _), h.idle, h.call, h.looks, h.shown_le⟩
  | store p v rest =>
    rw [hw] at hwriter
    obtain ⟨⟨rfl, rfl, hsame⟩, hrest⟩ := hwriter s.shared (Contract.rely_refl _ _)
    have hroom : s.shared.published + 1 < s.shared.acknowledged + room waits := by
      cases waits with
      | true =>
        have heq := hsame rfl
        simp only [room, if_true]
        omega
      | false =>
        have hlt := htime rfl
        simp only [InTime, hw] at hlt
        exact hlt
    have hcounted := h.counted.writerStored hroom
    have hgrown : s.shared.published ≤ (s.shared.writerStored p p (value (s.shared.published + 1))).published := by
      simp [Shared.writerStored]
    simp only [State.step, hw]
    exact
      { counted := hcounted
        writer := hrest
        idle := h.idle
        call := fun c hc => (h.call c hc).stable fun _ => ⟨hcounted, rfl, rfl, hgrown⟩
        looks := h.looks
        shown_le := fun l hl => Nat.le_trans (h.shown_le l hl) hgrown }

/-- The writer does not notice what the reader does, but that more is acknowledged. -/
theorem Inv.writer_stable (h : Inv counter waits s) {t : Shared} (ht : t.Counted counter (room waits))
    (hp : t.published = s.shared.published) (ha : s.shared.acknowledged ≤ t.acknowledged) :
    (writerContract counter waits).Meets (fun _ _ => True) s.writer t :=
  h.writer.stable fun _ => ⟨ht, hp, ha⟩

theorem inv_return (h : Inv counter waits s) {began : Nat} {ready : Bool}
    (hcall : s.call = some ⟨began, .ret ready⟩) : Inv counter waits (s.step counter .reader) := by
  have hanswer : Answered waits began (lastShown s.looks) ready s.shared :=
    h.call _ hcall s.shared (Contract.rely_refl _ _)
  simp only [State.step, hcall]
  refine ⟨h.counted, h.writer, fun _ => ?_, by simp, ⟨?_, h.looks⟩, ?_⟩
  · cases ready with
    | true => exact hanswer.1
    | false => exact hanswer.1
  · cases ready with
    | true => exact hanswer.2
    | false => exact hanswer.2
  · intro l hl
    rcases List.mem_cons.mp hl with rfl | hl
    · exact h.counted.loaded_le
    · exact h.shown_le l hl

theorem inv_reader (h : Inv counter waits s) : Inv counter waits (s.step counter .reader) := by
  rcases hcall : s.call with _ | ⟨began, _ | ⟨p, k⟩ | ⟨p, v, rest⟩⟩
  · have hidle := h.idle hcall
    simp only [State.step, hcall]
    refine ⟨h.counted, h.writer, by simp, fun c hc => ?_, h.looks, h.shown_le⟩
    cases hc
    rw [← hidle]
    exact counterReady_meets h.counted
  · exact inv_return h hcall
  · have hload := h.call _ hcall s.shared (Contract.rely_refl _ _)
    have hcounted := h.counted.readerLoaded p
    simp only [State.step, hcall]
    refine ⟨hcounted, h.writer_stable hcounted rfl (Nat.le_refl _), by simp, fun c hc => ?_, h.looks, h.shown_le⟩
    cases hc
    exact hload
  · obtain ⟨⟨rfl, rfl, hnew⟩, hrest⟩ := h.call _ hcall s.shared (Contract.rely_refl _ _)
    have hcounted := h.counted.readerStored hnew
    have hgrown : s.shared.acknowledged ≤
        (s.shared.readerStored counter (counter + 4) (value s.shared.loaded)).acknowledged := by
      simpa [Shared.readerStored] using h.counted.acknowledged_le
    simp only [State.step, hcall]
    refine ⟨hcounted, h.writer_stable hcounted rfl hgrown, by simp, fun c hc => ?_, h.looks, h.shown_le⟩
    cases hc
    exact hrest

theorem inv_step (h : Inv counter false s) {e : Event} (htime : InTime s e) :
    Inv counter false (s.step counter e) := by
  cases e with
  | writer round => exact inv_writer h (fun hwaits => by cases hwaits) fun _ => htime
  | reader => exact inv_reader h

theorem inv_step_of_waits (h : Inv counter true s) {e : Event} (hwait : Waits s e) :
    Inv counter true (s.step counter e) := by
  cases e with
  | writer round => exact inv_writer h (fun _ => hwait) fun hwaits => by cases hwaits
  | reader => exact inv_reader h

end Steps

/-! ### Frames shown once -/

section Looks

variable {waits : Bool} {looks : List Look}

theorem lastShown_le_cons {l : Look} (h : l.Right waits looks) : lastShown looks ≤ lastShown (l :: looks) := by
  cases hready : l.ready with
  | true =>
    simp only [Look.Right, hready, if_true] at h
    simp only [lastShown, hready, if_true]
    omega
  | false => simp [lastShown, hready]

theorem began_le (h : Always (Look.Right waits) looks) : ∀ l ∈ looks, l.began ≤ lastShown looks := by
  induction looks with
  | nil => simp
  | cons l before ih =>
    intro m hm
    rcases List.mem_cons.mp hm with rfl | hm
    · have hright := h.1
      cases hready : m.ready with
      | true =>
        simp only [Look.Right, hready, if_true] at hright
        simpa [lastShown, hready] using hright.1
      | false => simpa [Look.Right, lastShown, hready] using hright
    · exact Nat.le_trans (ih h.2 m hm) (lastShown_le_cons h.1)

theorem timesShown_eq (h : Always (Look.Right waits) looks) (k : Nat) :
    timesShown k looks = if 0 < k ∧ k ≤ lastShown looks then 1 else 0 := by
  induction looks with
  | nil =>
    rw [if_neg fun hk => by simp only [lastShown] at hk; omega]
    rfl
  | cons l before ih =>
    rw [timesShown, ih h.2]
    have hright := h.1
    cases hready : l.ready with
    | true =>
      simp only [Look.Right, hready, if_true] at hright
      simp only [Look.Shows, lastShown, hready, if_true, true_and]
      split <;> split <;> split <;> omega
    | false => simp [Look.Shows, lastShown, hready]

theorem shows_next {l : Look} (h : l.Right waits looks) (hready : l.ready = true) :
    l.Shows looks (lastShown looks + 1) := by
  simp only [Look.Right, hready, if_true] at h
  exact ⟨hready, Nat.lt_succ_self _, h.2.1⟩

/-- A writer that waits leaves nothing to be shown together. -/
theorem always_next (h : Always (Look.Right true) looks) :
    Always (fun l before => l.ready = true → l.shown = lastShown before + 1) looks := by
  induction looks with
  | nil => trivial
  | cons l before ih =>
    refine ⟨fun hready => ?_, ih h.2⟩
    have hright := h.1
    simp only [Look.Right, hready, if_true, room] at hright
    omega

end Looks

section Results

variable {counter : Nat} {waits : Bool} {s : State}

theorem always_fresh {looks : List Look} {published : Nat} (h : Always (Look.Right waits) looks)
    (hle : ∀ l ∈ looks, l.shown ≤ published) :
    Always (fun l before => l.ready = true → ∃ k ≤ published, l.Shows before k) looks := by
  induction looks with
  | nil => trivial
  | cons l before ih =>
    refine ⟨fun hready => ?_, ih h.2 fun m hm => hle m (List.mem_cons_of_mem l hm)⟩
    have hshows := shows_next h.1 hready
    exact ⟨_, Nat.le_trans hshows.2.2 (hle l List.mem_cons_self), hshows⟩

theorem Inv.seenOnce (h : Inv counter waits s) : SeenOnce counter s where
  acknowledged_le := h.counted.acknowledged_le_published
  differ := by
    intro hnew hsame
    have heq := h.counted.memory_eq_iff.mp hsame.symm
    omega
  fresh := always_fresh h.looks h.shown_le
  atMostOnce := by
    intro k
    rw [timesShown_eq h.looks]
    split <;> omega
  seen := by
    intro l hl k hk hle
    rw [timesShown_eq h.looks, if_pos ⟨hk, Nat.le_trans hle (began_le h.looks l hl)⟩]

/-- With one frame more the counter of the writer comes round to the one of the reader. -/
theorem not_seenOnce_of_late (h : Inv counter false s) {e : Event} (hlate : ¬ InTime s e) :
    ¬ SeenOnce counter (s.step counter e) := by
  cases e with
  | reader => exact absurd trivial hlate
  | writer round =>
    have hwriter := h.writer
    cases hw : s.writer with
    | ret _ => simp [InTime, hw] at hlate
    | load p k => simp [InTime, hw] at hlate
    | store p v rest =>
      rw [hw] at hwriter
      obtain ⟨⟨rfl, rfl, -⟩, -⟩ := hwriter s.shared (Contract.rely_refl _ _)
      simp only [InTime, hw] at hlate
      have hlt : s.shared.published < s.shared.acknowledged + 2 ^ 31 := h.counted.lt
      have hle := h.counted.acknowledged_le_published
      have hround : value (s.shared.published + 1) = value s.shared.acknowledged := by
        rw [value_eq_iff]
        omega
      intro hseen
      have hdiffer := hseen.differ
      simp [State.step, hw, Shared.writerStored, h.counted.read, hround] at hdiffer
      omega

end Results

/-! ### Looks come to an end -/

section Progress

variable {counter P n : Nat} {s : State}

theorem counterReady_within (counter : Nat) : (counterReady counter).Within 4 := by
  rw [counterReady_eq]
  intro iw ir
  by_cases hnew : ir ≠ iw
  · simp only [if_pos hnew]
    exact fun _ => trivial
  · simp only [if_neg hnew]
    trivial

/-- After `n` more steps of the reader a look that began when there were `P` frames has ended. -/
def Ends (P n : Nat) (s : State) : Prop :=
  (∃ l ∈ s.looks, P ≤ l.began) ∨
    match s.call with
    | none => 6 ≤ n
    | some c => ∃ m, c.prog.Within m ∧ m + (if P ≤ c.began then 1 else 7) ≤ n

theorem Ends.succ (h : Ends P n s) : Ends P (n + 1) s := by
  rcases h with h | h
  · exact .inl h
  · right
    cases hcall : s.call with
    | none =>
      simp only [hcall] at h ⊢
      omega
    | some c =>
      simp only [hcall] at h ⊢
      obtain ⟨m, hm, hle⟩ := h
      exact ⟨m, hm, by omega⟩

theorem ends_writer (h : Ends P n s) (round : Round) : Ends P n (s.step counter (.writer round)) := by
  rw [Ends, State.call_writer, State.looks_writer]
  exact h

theorem ends_reader (hP : P ≤ s.shared.published) (h : Ends P (n + 1) s) :
    Ends P n (s.step counter .reader) := by
  rcases h with ⟨l, hl, hle⟩ | h
  · left
    rcases hcall : s.call with _ | ⟨began, _ | ⟨p, k⟩ | ⟨p, v, rest⟩⟩ <;> simp only [State.step, hcall]
    · exact ⟨l, hl, hle⟩
    · exact ⟨l, List.mem_cons_of_mem _ hl, hle⟩
    · exact ⟨l, hl, hle⟩
    · exact ⟨l, hl, hle⟩
  · rcases hcall : s.call with _ | ⟨began, ready | ⟨p, k⟩ | ⟨p, v, rest⟩⟩ <;> simp only [hcall] at h
    · simp only [Ends, State.step, hcall]
      refine .inr ⟨4, counterReady_within counter, ?_⟩
      rw [if_pos hP]
      omega
    · obtain ⟨m, -, hle⟩ := h
      simp only [Ends, State.step, hcall]
      by_cases hbegan : P ≤ began
      · exact .inl ⟨_, List.mem_cons_self, hbegan⟩
      · rw [if_neg hbegan] at hle
        exact .inr (by omega)
    · obtain ⟨_ | m, hm, hle⟩ := h
      · exact hm.elim
      · simp only [Ends, State.step, hcall]
        exact .inr ⟨m, hm _, by omega⟩
    · obtain ⟨_ | m, hm, hle⟩ := h
      · exact hm.elim
      · simp only [Ends, State.step, hcall]
        exact .inr ⟨m, hm, by omega⟩

theorem published_le_step (counter : Nat) (s : State) (e : Event) :
    s.shared.published ≤ (s.step counter e).shared.published := by
  cases e with
  | writer round =>
    cases hw : s.writer with
    | ret _ => simp [State.step, hw]
    | load p k => simp [State.step, hw]
    | store p v rest =>
      simp only [State.step, hw, Shared.writerStored]
      split <;> omega
  | reader =>
    rcases hcall : s.call with _ | ⟨began, _ | ⟨p, k⟩ | ⟨p, v, rest⟩⟩ <;>
      simp [State.step, hcall, Shared.readerLoaded, Shared.readerStored]

theorem ended_of_ends (hP : P ≤ s.shared.published) (h : Ends P n s) {is : List Event}
    (hcount : n ≤ is.count .reader) :
    ∃ l ∈ (run (State.step counter) s is).looks, P ≤ l.began := by
  induction is generalizing s n with
  | nil =>
    rcases h with h | h
    · exact h
    · rw [List.count_nil] at hcount
      rcases hcall : s.call with _ | c <;> simp only [hcall] at h
      · omega
      · obtain ⟨m, -, hle⟩ := h
        split at hle <;> omega
  | cons e is ih =>
    have hP' := Nat.le_trans hP (published_le_step counter s e)
    cases e with
    | writer round => exact ih hP' (ends_writer h round) (by simpa using hcount)
    | reader =>
      rw [List.count_cons_self] at hcount
      cases n with
      | zero => exact ih hP' (ends_reader hP h.succ) (Nat.zero_le _)
      | succ n => exact ih hP' (ends_reader hP h) (Nat.le_of_succ_le_succ hcount)

theorem within_step (h : ∀ c ∈ s.call, c.prog.Within 4) (e : Event) :
    ∀ c ∈ (s.step counter e).call, c.prog.Within 4 := by
  cases e with
  | writer round =>
    rw [State.call_writer]
    exact h
  | reader =>
    intro c hc
    rcases hcall : s.call with _ | ⟨began, _ | ⟨p, k⟩ | ⟨p, v, rest⟩⟩ <;> simp only [State.step, hcall] at hc
    · cases hc
      exact counterReady_within counter
    · cases hc
    · cases hc
      exact (h _ hcall (s.shared.memory p)).succ
    · cases hc
      exact Prog.Within.succ (h _ hcall)

theorem within_run (counter : Nat) (h : ∀ c ∈ s.call, c.prog.Within 4) (is : List Event) :
    ∀ c ∈ (run (State.step counter) s is).call, c.prog.Within 4 := by
  induction is generalizing s with
  | nil => exact h
  | cons e is ih => exact ih (within_step h e)

theorem ended_of_count (counter : Nat) (before after : List Event) (hcount : 11 ≤ after.count .reader) :
    ∃ l ∈ (run (State.step counter) .start (before ++ after)).looks,
      (run (State.step counter) .start before).shared.published ≤ l.began := by
  have hwithin := within_run counter (show ∀ c ∈ State.start.call, c.prog.Within 4 by simp [State.start]) before
  rw [History.run_append]
  generalize run (State.step counter) .start before = s at hwithin
  have hends : Ends s.shared.published 11 s := by
    right
    cases hcall : s.call with
    | none => simp
    | some c =>
      refine ⟨4, hwithin c hcall, ?_⟩
      split <;> omega
  exact ended_of_ends (Nat.le_refl _) hends hcount

end Progress

/-! ### All runs -/

/-- Every frame is seen once exactly when, whenever a frame is published, less than `2 ^ 31 - 1` others
are not acknowledged; and eleven steps of the reader are enough for a look that begins and ends. -/
theorem seenOnce_iff (counter : Nat) (before after : List Event) :
    (Throughout (State.step counter) (SeenOnce counter) .start (before ++ after) ↔
      Guarded (State.step counter) InTime .start (before ++ after)) ∧
    (11 ≤ after.count .reader →
      ∃ l ∈ (run (State.step counter) .start (before ++ after)).looks,
        (run (State.step counter) .start before).shared.published ≤ l.began) := by
  refine ⟨?_, ended_of_count counter before after⟩
  exact History.throughout_iff_guarded (fun _ _ h htime => inv_step h htime) (fun _ h => h.seenOnce)
    (fun _ _ h hlate => not_seenOnce_of_late h hlate) (inv_start counter false)

/-- The offset of the cursor counter: behind the token and a `CURSORINFO`. -/
def addrCursorCounter : Nat := 64 + 24

theorem seenOnce_oneCursor :
    Throughout (State.step addrCursorCounter) (SeenOnce addrCursorCounter) .start
        (List.replicate 4 (.writer (.cursor true)) ++ List.replicate 11 .reader) ∧
      ∃ l ∈ (run (State.step addrCursorCounter) .start
        (List.replicate 4 (.writer (.cursor true)) ++ List.replicate 11 .reader)).looks, 1 ≤ l.began := by
  obtain ⟨hiff, hends⟩ := seenOnce_iff addrCursorCounter (List.replicate 4 (.writer (.cursor true)))
    (List.replicate 11 .reader)
  exact ⟨hiff.mpr (by decide +kernel), hends (by decide)⟩

/-! Cursors that the reader does not ask for, until the counter comes round. -/

def cursorRounds : Nat → List Event
  | 0 => []
  | n + 1 => cursorRounds n ++ List.replicate 4 (.writer (.cursor true))

/-- `n` cursors are published and the reader has not looked. -/
structure Unread (counter n : Nat) (s : State) : Prop where
  writer : s.writer = .ret ()
  call : s.call = none
  looks : s.looks = []
  published : s.shared.published = n
  write : s.shared.memory counter = value n
  read : s.shared.memory (counter + 4) = 0

section Unread

variable {counter n : Nat} {s : State}

theorem Unread.cursor (h : Unread counter n s) :
    Unread counter (n + 1) (run (State.step counter) s (List.replicate 4 (.writer (.cursor true)))) := by
  have hfinal : run (State.step counter) s (List.replicate 4 (.writer (.cursor true))) =
      { s with shared := s.shared.writerStored counter counter (value (n + 1)), writer := .ret () } := by
    simp only [List.replicate, History.run_cons, History.run_nil, State.step, h.writer, Round.prog, runGetCursorInfo,
      increaseCounter, if_true, Prog.read_bind, Prog.write_bind, h.write, succ_value, if_neg (value_succ_ne n),
      Prog.pure_eq]
  rw [hfinal]
  refine ⟨rfl, h.call, h.looks, ?_, ?_, ?_⟩
  · simp [Shared.writerStored, h.published]
  · simp [Shared.writerStored]
  · simp [Shared.writerStored, h.read]

theorem unread_cursorRounds (counter n : Nat) :
    Unread counter n (run (State.step counter) .start (cursorRounds n)) := by
  induction n with
  | zero => exact ⟨rfl, rfl, rfl, rfl, rfl, rfl⟩
  | succ n ih =>
    rw [cursorRounds, History.run_append]
    exact ih.cursor

theorem Unread.looks_of_round (h : Unread counter n s) (hround : value n = 0) :
    (run (State.step counter) s (List.replicate 4 .reader)).looks = [⟨n, false, n⟩] := by
  simp [List.replicate, State.step, h.call, counterReady_eq, h.write, h.read, hround, Shared.readerLoaded,
    h.looks, h.published]

end Unread

theorem looks_of_cursorRounds (counter : Nat) {n : Nat} (hn : n = 2 ^ 31) :
    (run (State.step counter) .start (cursorRounds n)).shared.memory counter =
        (run (State.step counter) .start (cursorRounds n)).shared.memory (counter + 4) ∧
      (run (State.step counter) .start (cursorRounds n ++ List.replicate 4 .reader)).looks = [⟨n, false, n⟩] := by
  have hunread := unread_cursorRounds counter n
  have hround : value n = 0 := by
    rw [hn]
    rfl
  rw [History.run_append]
  exact ⟨by rw [hunread.write, hunread.read, hround], hunread.looks_of_round hround⟩

/-- After `2 ^ 31` cursors the counters are equal, and a look shows none of them. -/
theorem cursors_lost :
    (run (State.step addrCursorCounter) .start (cursorRounds (2 ^ 31))).shared.memory addrCursorCounter =
        (run (State.step addrCursorCounter) .start (cursorRounds (2 ^ 31))).shared.memory (addrCursorCounter + 4) ∧
      (run (State.step addrCursorCounter) .start (cursorRounds (2 ^ 31) ++ List.replicate 4 .reader)).looks =
        [⟨2 ^ 31, false, 2 ^ 31⟩] ∧
      ¬ ∀ is, Throughout (State.step addrCursorCounter) (SeenOnce addrCursorCounter) .start is := by
  obtain ⟨n, hn⟩ : ∃ n : Nat, n = 2 ^ 31 := ⟨_, rfl⟩
  obtain ⟨hequal, hlooks⟩ := looks_of_cursorRounds addrCursorCounter hn
  rw [← hn]
  refine ⟨hequal, hlooks, fun h => ?_⟩
  have hseen := (History.throughout_last (h (cursorRounds n ++ List.replicate 4 .reader))).seen
  rw [hlooks] at hseen
  have honce := hseen _ List.mem_cons_self n (by omega) (Nat.le_refl n)
  simp [timesShown, Look.Shows] at honce

/-- Two frames, of which the second one is captured after the first was read. -/
def twoFrames : List Event :=
  List.replicate 4 (.writer (.capture false true)) ++ List.replicate 6 .reader ++
    List.replicate 6 (.writer (.capture true true)) ++ List.replicate 6 .reader

end RustDesk.PortableService
