import RustDesk.History

/-!
# The video pipeline of the client

The network task of the client hands the frames of a display to its video thread: a key
frame through a channel, any other frame through a bounded queue, with a wake-up in the
channel. When the queue is full the oldest frame in it is dropped, no wake-up is sent, and a
refresh is asked for. A refresh sets the flag that makes the thread discard what it pops,
until the thread gets a key frame.

`merge` reads channel and queue together: the frames in the order in which the thread will
take them.
-/

namespace RustDesk.ClientVideo

def videoQueueSize : Nat := 120

/-- A received frame; `seq` is its number in the order of arrival. -/
structure Frame where
  seq : Nat
  key : Bool
  deriving DecidableEq, Repr

/-- `MediaData`, as far as frames are concerned. -/
inductive MediaData
  | videoFrame (f : Frame)
  | videoQueue
  deriving DecidableEq, Repr

/-- Where the loop of the video thread is: before `recv`, with a key frame, with a wake-up,
or with a popped frame before the test of the flag. -/
inductive Thread
  | idle
  | frame (f : Frame)
  | woken
  | popped (f : Frame)
  deriving DecidableEq, Repr

/-- What became of a frame. -/
inductive Fate
  | decoded (f : Frame)
  | dropped (f : Frame)
  deriving DecidableEq, Repr

def Fate.decodedFrame : Fate → Option Frame
  | .decoded f => some f
  | .dropped _ => none

/-- `notify` says that the network task has pushed a frame and not sent the wake-up yet.
`received` is in the order of arrival, `log` newest first. -/
structure Pipeline where
  channel : List MediaData := []
  queue : List Frame := []
  notify : Bool := false
  discardQueue : Bool := false
  thread : Thread := .idle
  received : List Frame := []
  log : List Fate := []
  deriving DecidableEq, Repr

inductive Event
  | receive (key : Bool)
  | wake
  | refresh
  | recv
  | advance
  deriving DecidableEq, Repr

namespace Pipeline

/-- The `VideoFrame` branch of `handle_msg_from_peer`, up to the wake-up. -/
def receive (key : Bool) (s : Pipeline) : Pipeline :=
  if s.notify then s
  else
    let f : Frame := { seq := s.received.length, key }
    let s := { s with received := s.received ++ [f] }
    if key then { s with channel := s.channel ++ [.videoFrame f] }
    else
      -- `force_push`
      if s.queue.length < videoQueueSize then { s with queue := s.queue ++ [f], notify := true }
      else
        match s.queue with
        | [] => { s with queue := [f], notify := true }
        | old :: queue => { s with queue := queue ++ [f], log := .dropped old :: s.log }

def wake (s : Pipeline) : Pipeline :=
  if s.notify then { s with channel := s.channel ++ [.videoQueue], notify := false } else s

def recv (s : Pipeline) : Pipeline :=
  match s.thread, s.channel with
  | .idle, .videoFrame f :: channel => { s with thread := .frame f, channel }
  | .idle, .videoQueue :: channel => { s with thread := .woken, channel }
  | _, _ => s

/-- The next action of the video thread after `recv`. -/
def advance (s : Pipeline) : Pipeline :=
  match s.thread with
  | .idle => s
  | .frame f => { s with discardQueue := false, thread := .idle, log := .decoded f :: s.log }
  | .woken =>
    match s.queue with
    | [] => { s with thread := .idle }
    | f :: queue => { s with thread := .popped f, queue }
  | .popped f =>
    if s.discardQueue then { s with thread := .idle, log := .dropped f :: s.log }
    else { s with thread := .idle, log := .decoded f :: s.log }

def step (s : Pipeline) : Event → Pipeline
  | .receive key => s.receive key
  | .wake => s.wake
  | .refresh => { s with discardQueue := true }
  | .recv => s.recv
  | .advance => s.advance

/-! ### The property -/

/-- The frames handed to the decoder, in that order. -/
def decodedFrames (log : List Fate) : List Frame := (log.filterMap Fate.decodedFrame).reverse

/-- The latest key frame that was decoded. -/
def latestKey (log : List Fate) : Option Frame := (log.filterMap Fate.decodedFrame).find? (·.key)

/-- A frame that is no key frame is decoded only if every frame before it that was dropped
arrived before the latest decoded key frame. -/
def DeltaOk (e : Fate) (before : List Fate) : Prop :=
  ∀ d, e = .decoded d → d.key = false → ∀ x, .dropped x ∈ before → x.seq < d.seq →
    ∃ k, latestKey before = some k ∧ x.seq < k.seq

structure Intact (s : Pipeline) : Prop where
  ordered : (decodedFrames s.log).Sublist s.received
  deltas : History.Always DeltaOk s.log

/-- No key frame is in the channel or taken by the thread. -/
def noKeyPending (s : Pipeline) : Bool :=
  s.channel.all (· == .videoQueue) && match s.thread with
    | .frame _ => false
    | _ => true

/-- The condition: a frame that finds the queue full finds the flag set and no key frame on
its way to the decoder. -/
def NoHarmfulEviction (s : Pipeline) : Event → Prop
  | .receive key => key = false → s.notify = false → videoQueueSize ≤ s.queue.length →
    s.discardQueue = true ∧ s.noKeyPending = true
  | _ => True

instance (s : Pipeline) : ∀ ev, Decidable (NoHarmfulEviction s ev)
  | .receive key => inferInstanceAs (Decidable (key = false → s.notify = false →
      videoQueueSize ≤ s.queue.length → s.discardQueue = true ∧ s.noKeyPending = true))
  | .wake | .refresh | .recv | .advance => .isTrue trivial

/-! ### Channel and queue read together -/

/-- The frames in the order in which the thread will take them. -/
def merge : List MediaData → List Frame → List Frame
  | [], _ => []
  | .videoFrame f :: items, queue => f :: merge items queue
  | .videoQueue :: _, [] => []
  | .videoQueue :: items, f :: queue => f :: merge items queue

/-- The wake-ups among the items. -/
def wakes (items : List MediaData) : Nat := items.count .videoQueue

theorem merge_append_frame {items : List MediaData} {queue : List Frame}
    (h : wakes items = queue.length) (f : Frame) :
    merge (items ++ [MediaData.videoFrame f]) queue = merge items queue ++ [f] := by
  induction items generalizing queue with
  | nil => rfl
  | cons item items ih =>
    cases item with
    | videoFrame g =>
      simp only [wakes, List.count_cons_of_ne (by simp : MediaData.videoFrame g ≠ .videoQueue)] at h
      simp only [List.cons_append, merge, ih h]
    | videoQueue =>
      cases queue with
      | nil => simp [wakes] at h
      | cons g queue =>
        simp only [wakes, List.count_cons_self, List.length_cons, Nat.add_right_cancel_iff] at h
        simp only [List.cons_append, merge, ih h]

theorem merge_append_wake {items : List MediaData} {queue : List Frame}
    (h : wakes items = queue.length) (f : Frame) :
    merge (items ++ [MediaData.videoQueue]) (queue ++ [f]) = merge items queue ++ [f] := by
  induction items generalizing queue with
  | nil =>
    have hnil : queue = [] := List.length_eq_zero_iff.mp h.symm
    subst hnil
    rfl
  | cons item items ih =>
    cases item with
    | videoFrame g =>
      simp only [wakes, List.count_cons_of_ne (by simp : MediaData.videoFrame g ≠ .videoQueue)] at h
      simp only [List.cons_append, merge, ih h]
    | videoQueue =>
      cases queue with
      | nil => simp [wakes] at h
      | cons g queue =>
        simp only [wakes, List.count_cons_self, List.length_cons, Nat.add_right_cancel_iff] at h
        simp only [List.cons_append, merge, ih h]

theorem merge_wakes {items : List MediaData} {queue : List Frame}
    (hw : ∀ item ∈ items, item = .videoQueue) (h : wakes items = queue.length) :
    merge items queue = queue := by
  induction items generalizing queue with
  | nil => exact (List.length_eq_zero_iff.mp h.symm).symm
  | cons item items ih =>
    obtain rfl := hw item List.mem_cons_self
    cases queue with
    | nil => simp [wakes] at h
    | cons g queue =>
      simp only [wakes, List.count_cons_self, List.length_cons, Nat.add_right_cancel_iff] at h
      simp only [merge, ih (fun item hi => hw item (List.mem_cons_of_mem _ hi)) h]

/-! ### The invariant -/

/-- The frame that the thread holds. -/
def front (s : Pipeline) : List Frame :=
  match s.thread with
  | .frame f | .popped f => [f]
  | .idle | .woken => []

/-- The items between the two tasks, with a wake-up that was taken and not used and one
that is still to be sent. -/
def items (s : Pipeline) : List MediaData :=
  (if s.thread = .woken then [.videoQueue] else []) ++ s.channel ++
    (if s.notify then [.videoQueue] else [])

/-- The frames that are neither decoded nor dropped, in the order of the decoder. -/
def pending (s : Pipeline) : List Frame := s.front ++ merge s.items s.queue

structure Inv (s : Pipeline) : Prop where
  counted : wakes s.items = s.queue.length
  ordered : (decodedFrames s.log ++ s.pending).Sublist s.received
  numbered : s.received.Pairwise fun f g => f.seq < g.seq
  bounded : ∀ f ∈ s.received, f.seq < s.received.length
  droppedBounded : ∀ x, .dropped x ∈ s.log → x.seq < s.received.length
  keysAfter : ∀ x, .dropped x ∈ s.log → ∀ k ∈ s.pending, k.key = true → x.seq < k.seq
  kept : s.discardQueue = false → ∀ x, .dropped x ∈ s.log →
    ∃ k, latestKey s.log = some k ∧ x.seq < k.seq
  deltas : History.Always DeltaOk s.log
  keys : ∀ f, .videoFrame f ∈ s.channel → f.key = true
  held : ∀ f, s.thread = .frame f → f.key = true
  plain : ∀ f ∈ s.queue, f.key = false
  popped : ∀ f, s.thread = .popped f → f.key = false

theorem Inv.intact {s : Pipeline} (h : Inv s) : s.Intact :=
  ⟨(List.sublist_append_left _ _).trans h.ordered, h.deltas⟩

section

variable {s : Pipeline}

theorem decodedFrames_decoded (f : Frame) (log : List Fate) :
    decodedFrames (.decoded f :: log) = decodedFrames log ++ [f] := by
  simp [decodedFrames, Fate.decodedFrame]

theorem latestKey_key {f : Frame} (hf : f.key = true) (log : List Fate) :
    latestKey (.decoded f :: log) = some f := by
  simp [latestKey, Fate.decodedFrame, hf]

theorem latestKey_plain {f : Frame} (hf : f.key = false) (log : List Fate) :
    latestKey (.decoded f :: log) = latestKey log := by
  simp [latestKey, Fate.decodedFrame, hf]

theorem mem_dropped_decoded {x f : Frame} {log : List Fate}
    (h : Fate.dropped x ∈ .decoded f :: log) : .dropped x ∈ log := by
  simpa using h

theorem numbered_append (h : Inv s) (key : Bool) :
    (s.received ++ [(⟨s.received.length, key⟩ : Frame)]).Pairwise fun f g => f.seq < g.seq := by
  rw [List.pairwise_append]
  refine ⟨h.numbered, List.pairwise_singleton _ _, fun f hf g hg => ?_⟩
  rw [List.mem_singleton.mp hg]
  exact h.bounded f hf

theorem bounded_append (h : Inv s) (key : Bool) :
    ∀ f ∈ s.received ++ [(⟨s.received.length, key⟩ : Frame)],
      f.seq < (s.received ++ [(⟨s.received.length, key⟩ : Frame)]).length := by
  intro f hf
  rw [List.length_append, List.length_singleton]
  rcases List.mem_append.mp hf with hf | hf
  · have := h.bounded f hf
    omega
  · rw [List.mem_singleton.mp hf]
    simp

theorem mem_received_of_pending (h : Inv s) {f : Frame} (hf : f ∈ s.pending) : f ∈ s.received :=
  h.ordered.subset (List.mem_append_right _ hf)

/-- A step of one of the two tasks that moves a frame without deciding on it. -/
theorem Inv.moved {s' : Pipeline} (h : Inv s) (hr : s'.received = s.received)
    (hl : s'.log = s.log) (hd : s'.discardQueue = s.discardQueue)
    (hcount : wakes s'.items = s'.queue.length) (hp : s'.pending = s.pending)
    (hkeys : ∀ f, .videoFrame f ∈ s'.channel → f.key = true)
    (hheld : ∀ f, s'.thread = .frame f → f.key = true)
    (hplain : ∀ f ∈ s'.queue, f.key = false)
    (hpopped : ∀ f, s'.thread = .popped f → f.key = false) : Inv s' where
  counted := hcount
  ordered := by rw [hl, hp, hr]; exact h.ordered
  numbered := by rw [hr]; exact h.numbered
  bounded := by rw [hr]; exact h.bounded
  droppedBounded := by rw [hl, hr]; exact h.droppedBounded
  keysAfter := by rw [hl, hp]; exact h.keysAfter
  kept := by rw [hd, hl]; exact h.kept
  deltas := by rw [hl]; exact h.deltas
  keys := hkeys
  held := hheld
  plain := hplain
  popped := hpopped

theorem Inv.arrived {s' : Pipeline} (h : Inv s) {key : Bool}
    (hr : s'.received = s.received ++ [⟨s.received.length, key⟩]) (hl : s'.log = s.log)
    (hd : s'.discardQueue = s.discardQueue) (ht : s'.thread = s.thread)
    (hcount : wakes s'.items = s'.queue.length)
    (hp : s'.pending = s.pending ++ [⟨s.received.length, key⟩])
    (hkeys : ∀ f, .videoFrame f ∈ s'.channel → f.key = true)
    (hplain : ∀ f ∈ s'.queue, f.key = false) : Inv s' where
  counted := hcount
  ordered := by
    rw [hl, hp, hr, ← List.append_assoc]
    exact h.ordered.append (List.Sublist.refl _)
  numbered := by rw [hr]; exact numbered_append h key
  bounded := by rw [hr]; exact bounded_append h key
  droppedBounded x hx := by
    rw [hl] at hx
    rw [hr, List.length_append]
    have := h.droppedBounded x hx
    omega
  keysAfter x hx k hk hkey := by
    rw [hl] at hx
    rw [hp] at hk
    rcases List.mem_append.mp hk with hk | hk
    · exact h.keysAfter x hx k hk hkey
    · rw [List.mem_singleton.mp hk]
      exact h.droppedBounded x hx
  kept := by rw [hd, hl]; exact h.kept
  deltas := by rw [hl]; exact h.deltas
  keys := hkeys
  held := by rw [ht]; exact h.held
  plain := hplain
  popped := by rw [ht]; exact h.popped

theorem wakes_append (l l' : List MediaData) : wakes (l ++ l') = wakes l + wakes l' :=
  List.count_append

theorem inv_receive_key (h : Inv s) (hn : s.notify = false) : Inv (s.receive true) := by
  have hitems : ∀ f : Frame, ({ s with
      received := s.received ++ [f]
      channel := s.channel ++ [MediaData.videoFrame f] } : Pipeline).items =
      s.items ++ [MediaData.videoFrame f] := by
    intro f
    simp [items, hn]
  unfold receive
  rw [if_neg (by simp [hn])]
  simp only [if_true]
  refine h.arrived rfl rfl rfl rfl ?_ ?_ ?_ h.plain
  · rw [hitems, wakes_append]
    exact h.counted
  · unfold pending
    rw [hitems, List.append_assoc]
    exact congrArg _ (merge_append_frame h.counted _)
  · intro f hf
    rcases List.mem_append.mp hf with hf | hf
    · exact h.keys f hf
    · rw [MediaData.videoFrame.inj (List.mem_singleton.mp hf)]

theorem inv_push (h : Inv s) (hn : s.notify = false) :
    Inv { s with
      received := s.received ++ [⟨s.received.length, false⟩]
      queue := s.queue ++ [⟨s.received.length, false⟩]
      notify := true } := by
  have hitems : ∀ f : Frame, ({ s with
      received := s.received ++ [f]
      queue := s.queue ++ [f]
      notify := true } : Pipeline).items = s.items ++ [MediaData.videoQueue] := by
    intro f
    simp [items, hn]
  refine h.arrived rfl rfl rfl rfl ?_ ?_ h.keys ?_
  · rw [hitems, wakes_append, h.counted]
    simp [wakes]
  · unfold pending
    rw [hitems, List.append_assoc]
    exact congrArg _ (merge_append_wake h.counted _)
  · intro f hf
    rcases List.mem_append.mp hf with hf | hf
    · exact h.plain f hf
    · rw [List.mem_singleton.mp hf]

/-- With no key frame pending, only the queue and a popped frame are left. -/
theorem items_of_noKeyPending (hk : s.noKeyPending = true) :
    (∀ item ∈ s.items, item = .videoQueue) ∧ ∀ f, s.thread ≠ .frame f := by
  unfold noKeyPending at hk
  rw [Bool.and_eq_true, List.all_eq_true] at hk
  obtain ⟨hall, hthread⟩ := hk
  refine ⟨fun item hi => ?_, fun f hf => by simp [hf] at hthread⟩
  unfold items at hi
  rcases List.mem_append.mp hi with hi | hi
  · rcases List.mem_append.mp hi with hi | hi
    · split at hi
      · exact List.mem_singleton.mp hi
      · cases hi
    · simpa using hall item hi
  · split at hi
    · exact List.mem_singleton.mp hi
    · cases hi

/-- A thread that handles no frame from the channel has one of the queue or none. -/
theorem front_plain (h : Inv s) (hthread : ∀ g, s.thread ≠ .frame g) : ∀ f ∈ s.front, f.key = false := by
  intro f hf
  unfold front at hf
  split at hf
  · rename_i g hg
    exact absurd hg (hthread g)
  · rename_i g hg
    rw [List.mem_singleton.mp hf]
    exact h.popped g hg
  · cases hf
  · cases hf

theorem inv_evict (h : Inv s) {old : Frame} {queue : List Frame} (hq : s.queue = old :: queue)
    (hd : s.discardQueue = true) (hk : s.noKeyPending = true) :
    Inv { s with
      received := s.received ++ [⟨s.received.length, false⟩]
      queue := queue ++ [⟨s.received.length, false⟩]
      log := .dropped old :: s.log } := by
  obtain ⟨hwakes, hthread⟩ := items_of_noKeyPending hk
  have hcount : wakes s.items = (queue ++ [(⟨s.received.length, false⟩ : Frame)]).length := by
    rw [h.counted, hq]
    simp
  have hmerge := merge_wakes hwakes h.counted
  have hmerge' := merge_wakes hwakes hcount
  have hqueue : ∀ f ∈ queue ++ [(⟨s.received.length, false⟩ : Frame)], f.key = false := by
    intro f hf
    rcases List.mem_append.mp hf with hf | hf
    · exact h.plain f (by rw [hq]; exact List.mem_cons_of_mem old hf)
    · rw [List.mem_singleton.mp hf]
  have hp : s.pending = s.front ++ s.queue := congrArg _ hmerge
  have hold : old ∈ s.received :=
    mem_received_of_pending h (by rw [hp, hq]; simp)
  exact
    { counted := hcount
      ordered := by
        have hord := h.ordered
        rw [hp, hq] at hord
        change (decodedFrames s.log ++ (s.front ++ merge s.items
          (queue ++ [⟨s.received.length, false⟩]))).Sublist _
        rw [hmerge', ← List.append_assoc, ← List.append_assoc]
        refine List.Sublist.append ?_ (List.Sublist.refl _)
        refine List.Sublist.trans ?_ hord
        rw [← List.append_assoc]
        exact (List.Sublist.refl _).append (List.sublist_cons_self old queue)
      numbered := numbered_append h false
      bounded := bounded_append h false
      droppedBounded := fun x hx => by
        rw [List.length_append]
        rcases List.mem_cons.mp hx with hx | hx
        · cases hx
          have := h.bounded old hold
          omega
        · have := h.droppedBounded x hx
          omega
      keysAfter := fun x hx k hk' hkey => by
        change k ∈ s.front ++ merge s.items (queue ++ [⟨s.received.length, false⟩]) at hk'
        rw [hmerge'] at hk'
        have hno : k.key = false := by
          rcases List.mem_append.mp hk' with hk' | hk'
          · exact front_plain h hthread k hk'
          · exact hqueue k hk'
        rw [hkey] at hno
        cases hno
      kept := fun hf => by
        rw [show s.discardQueue = false from hf] at hd
        cases hd
      deltas := ⟨fun d hd' => (by cases hd'), h.deltas⟩
      keys := h.keys
      held := h.held
      plain := hqueue
      popped := h.popped }

theorem inv_receive (h : Inv s) {key : Bool} (hg : NoHarmfulEviction s (.receive key)) :
    Inv (s.receive key) := by
  cases hn : s.notify with
  | true =>
    unfold receive
    rw [if_pos hn]
    exact h
  | false =>
    cases key with
    | true => exact inv_receive_key h hn
    | false =>
      unfold receive
      rw [if_neg (by simp [hn])]
      simp only [Bool.false_eq_true, if_false]
      split
      · exact inv_push h hn
      · rename_i hfull
        obtain ⟨hd, hk⟩ := hg rfl hn (by omega)
        split
        · rename_i hq
          exact absurd (by rw [show s.queue = [] from hq]; decide) hfull
        · rename_i old queue hq
          exact inv_evict h hq hd hk

theorem inv_wake (h : Inv s) : Inv s.wake := by
  unfold wake
  split
  · rename_i hn
    have hitems : ({ s with channel := s.channel ++ [MediaData.videoQueue], notify := false } :
        Pipeline).items = s.items := by
      simp [items, hn]
    refine h.moved rfl rfl rfl ?_ ?_ (fun f hf => ?_) h.held h.plain h.popped
    · rw [hitems]
      exact h.counted
    · unfold pending
      rw [hitems]
      rfl
    · rcases List.mem_append.mp hf with hf | hf
      · exact h.keys f hf
      · cases List.mem_singleton.mp hf
  · exact h

theorem inv_recv (h : Inv s) : Inv s.recv := by
  unfold recv
  split
  · rename_i f channel ht hc
    have hitems : s.items = .videoFrame f :: ({ s with thread := .frame f, channel } :
        Pipeline).items := by
      simp [items, ht, hc]
    refine h.moved rfl rfl rfl ?_ ?_ (fun g hg => ?_) (fun g hg => ?_) h.plain fun g hg => ?_
    · have hcount := h.counted
      rw [hitems, wakes, List.count_cons_of_ne (by simp)] at hcount
      exact hcount
    · unfold pending
      rw [hitems]
      simp [front, ht, merge]
    · exact h.keys g (by rw [hc]; exact List.mem_cons_of_mem _ hg)
    · cases hg
      exact h.keys f (by rw [hc]; exact List.mem_cons_self)
    · cases hg
  · rename_i channel ht hc
    have hitems : ({ s with thread := .woken, channel } : Pipeline).items = s.items := by
      simp [items, ht, hc]
    refine h.moved rfl rfl rfl ?_ ?_ (fun g hg => ?_) (fun g hg => ?_) h.plain fun g hg => ?_
    · rw [hitems]
      exact h.counted
    · unfold pending
      rw [hitems]
      simp [front, ht]
    · exact h.keys g (by rw [hc]; exact List.mem_cons_of_mem _ hg)
    · cases hg
    · cases hg
  · exact h

/-- The frame at the front is decided on, and the thread goes back to `recv`. -/
theorem front_frame {f : Frame} (ht : s.thread = .frame f ∨ s.thread = .popped f) :
    s.pending = f :: merge s.items s.queue ∧
      s.items = ({ s with thread := .idle } : Pipeline).items := by
  rcases ht with ht | ht <;> simp [pending, front, items, ht]

theorem Inv.decoded (h : Inv s) {f : Frame} (ht : s.thread = .frame f ∨ s.thread = .popped f)
    (discard : Bool) (hkept : discard = false → ∀ x, .dropped x ∈ s.log →
      ∃ k, latestKey (.decoded f :: s.log) = some k ∧ x.seq < k.seq)
    (hok : DeltaOk (.decoded f) s.log) :
    Inv { s with discardQueue := discard, thread := .idle, log := .decoded f :: s.log } := by
  obtain ⟨hp, hitems⟩ := front_frame ht
  have hord := h.ordered
  have hafter := h.keysAfter
  have hcount := h.counted
  rw [hp] at hord hafter
  rw [hitems] at hord hafter hcount
  exact
    { counted := hcount
      ordered := by
        change (decodedFrames (.decoded f :: s.log) ++
          ([] ++ merge ({ s with thread := .idle } : Pipeline).items s.queue)).Sublist s.received
        rw [decodedFrames_decoded, List.append_assoc, List.nil_append, List.singleton_append]
        exact hord
      numbered := h.numbered
      bounded := h.bounded
      droppedBounded := fun x hx => h.droppedBounded x (mem_dropped_decoded hx)
      keysAfter := fun x hx k hk hkey =>
        hafter x (mem_dropped_decoded hx) k (List.mem_cons_of_mem f hk) hkey
      kept := fun hf x hx => hkept hf x (mem_dropped_decoded hx)
      deltas := ⟨hok, h.deltas⟩
      keys := h.keys
      held := fun g hg => by cases hg
      plain := h.plain
      popped := fun g hg => by cases hg }

/-- A popped frame is discarded: the frames behind it arrived later. -/
theorem Inv.discarded (h : Inv s) {f : Frame} (ht : s.thread = .popped f)
    (hd : s.discardQueue = true) :
    Inv { s with thread := .idle, log := .dropped f :: s.log } := by
  obtain ⟨hp, hitems⟩ := front_frame (.inr ht)
  have hord := h.ordered
  have hafter := h.keysAfter
  have hcount := h.counted
  have hfront : f ∈ s.received := mem_received_of_pending h (by rw [hp]; exact List.mem_cons_self)
  rw [hp] at hord hafter
  rw [hitems] at hord hafter hcount
  have hlater : ∀ g ∈ merge ({ s with thread := .idle } : Pipeline).items s.queue,
      f.seq < g.seq := by
    have hpair := h.numbered.sublist ((List.sublist_append_right _ _).trans hord)
    exact fun g hg => List.rel_of_pairwise_cons hpair hg
  exact
    { counted := hcount
      ordered := by
        change (decodedFrames s.log ++
          ([] ++ merge ({ s with thread := .idle } : Pipeline).items s.queue)).Sublist s.received
        rw [List.nil_append]
        exact ((List.Sublist.refl _).append (List.sublist_cons_self f _)).trans hord
      numbered := h.numbered
      bounded := h.bounded
      droppedBounded := fun x hx => by
        rcases List.mem_cons.mp hx with hx | hx
        · cases hx
          exact h.bounded f hfront
        · exact h.droppedBounded x hx
      keysAfter := fun x hx k hk hkey => by
        rcases List.mem_cons.mp hx with hx | hx
        · cases hx
          exact hlater k hk
        · exact hafter x hx k (List.mem_cons_of_mem f hk) hkey
      kept := fun hf => by
        rw [show s.discardQueue = false from hf] at hd
        cases hd
      deltas := ⟨fun d hd' => (by cases hd'), h.deltas⟩
      keys := h.keys
      held := fun g hg => by cases hg
      plain := h.plain
      popped := fun g hg => by cases hg }

theorem inv_advance (h : Inv s) : Inv s.advance := by
  unfold advance
  split
  · exact h
  · rename_i f ht
    have hkey := h.held f ht
    have hf : f ∈ s.pending := by
      rw [(front_frame (.inl ht)).1]
      exact List.mem_cons_self
    refine h.decoded (.inl ht) false (fun _ x hx => ?_) fun d hd hplain => ?_
    · exact ⟨f, latestKey_key hkey s.log, h.keysAfter x hx f hf hkey⟩
    · cases hd
      rw [hkey] at hplain
      cases hplain
  · rename_i ht
    split
    · rename_i hq
      have hcount := h.counted
      simp [items, ht, hq, wakes] at hcount
    · rename_i f queue hq
      have hitems : s.items = .videoQueue ::
          ({ s with thread := .popped f, queue } : Pipeline).items := by
        simp [items, ht]
      refine h.moved rfl rfl rfl ?_ ?_ h.keys (fun g hg => ?_) (fun g hg => ?_) fun g hg => ?_
      · have hcount := h.counted
        rw [hitems, wakes, List.count_cons_self, hq, List.length_cons] at hcount
        exact Nat.add_right_cancel hcount
      · unfold pending
        rw [hitems, hq]
        simp [front, ht, merge]
      · cases hg
      · exact h.plain g (by rw [hq]; exact List.mem_cons_of_mem f hg)
      · cases hg
        exact h.plain f (by rw [hq]; exact List.mem_cons_self)
  · rename_i f ht
    have hplain := h.popped f ht
    split
    · rename_i hd
      exact h.discarded ht hd
    · rename_i hd
      have hd' : s.discardQueue = false := by simpa using hd
      refine h.decoded (.inr ht) s.discardQueue (fun _ x hx => ?_) fun d _ _ x hx _ => ?_
      · rw [latestKey_plain hplain]
        exact h.kept hd' x hx
      · exact h.kept hd' x hx

theorem inv_step (h : Inv s) (ev : Event) (hg : NoHarmfulEviction s ev) : Inv (s.step ev) := by
  cases ev with
  | receive key => exact inv_receive h hg
  | wake => exact inv_wake h
  | refresh =>
    exact { h with kept := fun hf => by cases hf }
  | recv => exact inv_recv h
  | advance => exact inv_advance h

theorem inv_start : Inv {} := by
  constructor <;> simp [items, wakes, pending, front, merge, decodedFrames]

end

/-- In every run in which a full queue is met only by frames that are to be discarded, the
decoder gets the frames in the order of arrival, and no frame after one that it misses. -/
theorem intact_throughout (evs : List Event)
    (hg : History.Guarded step NoHarmfulEviction {} evs) :
    History.Throughout step Intact {} evs := by
  have hinv : History.Throughout step Inv {} evs :=
    History.throughout_of_guarded (fun _ ev h hok => inv_step h ev hok) inv_start hg
  exact History.throughout_imp (fun _ h => Inv.intact h) hinv

/-- A frame is discarded after a refresh, and decoding goes on with the next key frame. -/
def refreshRun : List Event :=
  [.receive true, .receive false, .wake, .recv, .advance, .recv, .advance, .advance,
    .receive false, .wake, .refresh, .recv, .advance, .advance, .receive true, .recv, .advance]

theorem intact_refreshRun :
    decodedFrames (History.run step {} refreshRun).log = [⟨0, true⟩, ⟨1, false⟩, ⟨3, true⟩] ∧
      History.Throughout step Intact {} refreshRun :=
  ⟨by decide, intact_throughout refreshRun (by decide)⟩

/-- After a key frame that was decoded, 121 frames come while the video thread is busy. -/
def burst : List Event :=
  [.receive true, .recv, .advance] ++
    (List.replicate (videoQueueSize + 1) [.receive false, .wake]).flatten ++
    [.recv, .advance, .advance]

/-- The oldest of them is dropped, and the next one is decoded. -/
theorem decodes_after_eviction :
    ¬ ∀ evs : List Event, History.Throughout step Intact {} evs := by
  intro hall
  have hlog : (History.run step {} burst).log =
      [.decoded ⟨2, false⟩, .dropped ⟨1, false⟩, .decoded ⟨0, true⟩] := by decide +kernel
  generalize burst = evs at hlog
  have hdelta := (History.throughout_last (hall evs)).deltas
  rw [hlog] at hdelta
  obtain ⟨k, hk, hlt⟩ := hdelta.1 ⟨2, false⟩ rfl rfl ⟨1, false⟩ (by simp) (by decide)
  have hkey : some k = some ⟨0, true⟩ := hk.symm
  cases hkey
  revert hlt
  decide

end Pipeline

end RustDesk.ClientVideo
