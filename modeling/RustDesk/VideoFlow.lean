import RustDesk.ConnectionState
import RustDesk.History
import Mathlib.Data.Finset.Card
import Mathlib.Data.Finset.Union

/-!
# Flow control of the video services

A video service sends a frame to its subscribers and then waits until as many connections
have reported as the frame was sent to, or for three seconds. The reports go through one
channel per display index, which a monitor and a camera share, and name neither the frame
nor the service.

For the statement a report remembers what it is about, and `reports` keeps all of them in
the order in which they were made.
-/

namespace RustDesk.VideoFlow

/-- A video service: its source and its index. -/
abbrev ServiceId := VideoSource × Nat

/-- A frame that was sent; `seq` counts the frames of all services. -/
structure Frame where
  service : ServiceId
  seq : Nat
  deriving DecidableEq, Repr

/-- The frame that was taken from the queue of the connection, the frame that the peer says
it received, or the end of the connection. -/
inductive Report
  | fetched (f : Frame)
  | received (f : Frame)
  | closing
  deriving DecidableEq, Repr

def Report.About (f : Frame) : Report → Prop
  | .fetched g | .received g => g = f
  | .closing => True

instance (f : Frame) (r : Report) : Decidable (r.About f) :=
  match r with
  | .fetched g | .received g => inferInstanceAs (Decidable (g = f))
  | .closing => .isTrue trivial

/-- An entry of a channel: `stamp` is the place of the report among all reports. -/
structure Entry where
  conn : Int
  report : Report
  stamp : Nat
  deriving DecidableEq, Repr

/-- `send_conn_ids` of the controller and `fetched_conn_ids` of the loop, with the frame and
the number of reports when it was sent. -/
structure Wait where
  frame : Frame
  sendConnIds : Finset Int
  fetchedConnIds : Finset Int := ∅
  since : Nat
  deriving DecidableEq

/-- The report belongs to the wait: it comes from a connection of the set, was made since
the frame was sent, and is about the frame or the closing. -/
def Entry.Belongs (w : Wait) (e : Entry) : Prop :=
  e.conn ∈ w.sendConnIds ∧ w.since ≤ e.stamp ∧ e.report.About w.frame

instance (w : Wait) (e : Entry) : Decidable (e.Belongs w) :=
  inferInstanceAs (Decidable (_ ∧ _ ∧ _))

inductive Phase
  | idle
  | sent (w : Wait)
  | waiting (w : Wait)
  deriving DecidableEq

structure Video where
  subscribes : ServiceId → Finset Int := fun _ => ∅
  phase : ServiceId → Phase := fun _ => .idle
  notifier : Nat → List Entry := fun _ => []
  displayConnIds : Nat → Option (Finset Int) := fun _ => none
  rxVideo : Int → List Frame := fun _ => []
  videoAckRequired : Int → Bool := fun _ => false
  frames : Nat := 0
  reports : List (Int × Report) := []

inductive Event
  | subscribe (v : ServiceId) (conn : Int)
  | unsubscribe (v : ServiceId) (conn : Int)
  | login (conn : Int) (ackRequired : Bool)
  | handleOneFrame (v : ServiceId)
  | setSend (v : ServiceId)
  | tryWaitNext (v : ServiceId)
  | timeLimit (v : ServiceId)
  | noFrame (v : ServiceId)
  | switch (v : ServiceId)
  | rxVideo (conn : Int)
  | videoReceived (conn : Int) (f : Frame)
  | close (conn : Int)

namespace Video

def notifyVideoFrameFetched (idx : Nat) (conn : Int) (r : Report) (s : Video) : Video :=
  { s with
    notifier := Function.update s.notifier idx (s.notifier idx ++ [⟨conn, r, s.reports.length⟩])
    reports := s.reports ++ [(conn, r)] }

/-- `notify_video_frame_fetched_by_conn_id`: a report for every index at which a frame sent
to the connection is waited for. -/
def notifyVideoFrameFetchedByConnId (conn : Int) (r : Report) (s : Video) : Video :=
  { s with
    notifier := fun idx =>
      if conn ∈ (s.displayConnIds idx).getD ∅ then
        s.notifier idx ++ [⟨conn, r, s.reports.length⟩]
      else s.notifier idx
    reports := s.reports ++ [(conn, r)] }

/-- `send_video_frame`: the frame goes to the queue of every subscriber. -/
def handleOneFrame (v : ServiceId) (s : Video) : Video :=
  match s.phase v with
  | .idle =>
    let frame : Frame := { service := v, seq := s.frames }
    let w : Wait := { frame, sendConnIds := s.subscribes v, since := s.reports.length }
    { s with
      phase := Function.update s.phase v (.sent w)
      rxVideo := fun c => if c ∈ s.subscribes v then s.rxVideo c ++ [frame] else s.rxVideo c
      frames := s.frames + 1 }
  | _ => s

def setSend (v : ServiceId) (s : Video) : Video :=
  match s.phase v with
  | .sent w =>
    { s with
      phase := Function.update s.phase v (.waiting w)
      displayConnIds :=
        if w.sendConnIds = ∅ then s.displayConnIds
        else Function.update s.displayConnIds v.2 (some w.sendConnIds) }
  | _ => s

/-- The wait loop is left. -/
def endWait (v : ServiceId) (s : Video) : Video :=
  { s with
    phase := Function.update s.phase v .idle
    displayConnIds := Function.update s.displayConnIds v.2 none }

/-- The reports taken by one `try_wait_next`: all that are in the channel, and none when
the frame was sent to nobody. -/
def taken (v : ServiceId) (w : Wait) (s : Video) : List Entry :=
  if w.sendConnIds = ∅ then [] else s.notifier v.2

/-- A turn of the wait loop. -/
def tryWaitNext (v : ServiceId) (s : Video) : Video :=
  match s.phase v with
  | .waiting w =>
    let fetched := w.fetchedConnIds ∪ ((s.taken v w).map (·.conn)).toFinset
    let s := if w.sendConnIds = ∅ then s else
      { s with notifier := Function.update s.notifier v.2 [] }
    if w.sendConnIds.card ≤ fetched.card then s.endWait v
    else
      { s with phase := Function.update s.phase v (.waiting { w with fetchedConnIds := fetched }) }
  | _ => s

def timeLimit (v : ServiceId) (s : Video) : Video :=
  match s.phase v with
  | .waiting _ => s.endWait v
  | _ => s

/-- A turn of the loop in which nothing was captured or encoded: there is nobody to wait for. -/
def noFrame (v : ServiceId) (s : Video) : Video :=
  match s.phase v with
  | .idle => s.endWait v
  | _ => s

/-- The connection takes a message from its video queue. -/
def fetch (conn : Int) (s : Video) : Video :=
  match s.rxVideo conn with
  | [] => s
  | f :: rest =>
    let s := { s with rxVideo := Function.update s.rxVideo conn rest }
    if s.videoAckRequired conn then s
    else s.notifyVideoFrameFetched f.service.2 conn (.fetched f)

def step (s : Video) : Event → Video
  | .subscribe v conn =>
    { s with subscribes := Function.update s.subscribes v (insert conn (s.subscribes v)) }
  | .unsubscribe v conn =>
    { s with subscribes := Function.update s.subscribes v ((s.subscribes v).erase conn) }
  | .login conn ackRequired =>
    { s with videoAckRequired := Function.update s.videoAckRequired conn ackRequired }
  | .handleOneFrame v => s.handleOneFrame v
  | .setSend v => s.setSend v
  | .tryWaitNext v => s.tryWaitNext v
  | .timeLimit v => s.timeLimit v
  | .noFrame v => s.noFrame v
  -- the loop is left, mostly by an error, `Raii` is dropped, and `run` may start again
  | .switch v => s.endWait v
  | .rxVideo conn => s.fetch conn
  | .videoReceived conn f => s.notifyVideoFrameFetchedByConnId conn (.received f)
  | .close conn => s.notifyVideoFrameFetchedByConnId conn .closing

/-! ### What ends a wait -/

/-- Since the frame was sent the connection has reported it, or its closing. -/
def ReportedSince (w : Wait) (conn : Int) (s : Video) : Prop :=
  ∃ r, (conn, r) ∈ s.reports.drop w.since ∧ r.About w.frame

/-- A wait that ends before the limit ends with a report of every connection. -/
def EndsReported (s : Video) : Event → Prop
  | .tryWaitNext v => ∀ w, s.phase v = .waiting w → (s.tryWaitNext v).phase v = .idle →
    ∀ conn ∈ w.sendConnIds, s.ReportedSince w conn
  | _ => True

/-- The condition: every report that a wait takes from the channel belongs to it. -/
def NoStray (s : Video) : Event → Prop
  | .tryWaitNext v => ∀ w, s.phase v = .waiting w → ∀ e ∈ s.taken v w, e.Belongs w
  | _ => True

structure Inv (s : Video) : Prop where
  stamped : ∀ idx, ∀ e ∈ s.notifier idx, s.reports[e.stamp]? = some (e.conn, e.report)
  fetched : ∀ v w, s.phase v = .waiting w → ∀ conn ∈ w.fetchedConnIds,
    conn ∈ w.sendConnIds ∧ s.ReportedSince w conn
  fresh : ∀ v w, s.phase v = .sent w → w.fetchedConnIds = ∅

section

variable {s : Video} {v : ServiceId} {w : Wait} {conn : Int}

theorem ReportedSince.grow {s' : Video} (h : s.ReportedSince w conn) {new : List (Int × Report)}
    (hr : s'.reports = s.reports ++ new) : s'.ReportedSince w conn := by
  obtain ⟨r, hr', habout⟩ := h
  refine ⟨r, ?_, habout⟩
  rw [hr, List.drop_append]
  exact List.mem_append_left _ hr'

/-- A stamped report that belongs to the wait was made since the frame was sent. -/
theorem reportedSince_of_belongs {e : Entry}
    (hs : s.reports[e.stamp]? = some (e.conn, e.report)) (hb : e.Belongs w) :
    s.ReportedSince w e.conn := by
  obtain ⟨-, hsince, habout⟩ := hb
  refine ⟨e.report, ?_, habout⟩
  rw [List.mem_iff_getElem?]
  refine ⟨e.stamp - w.since, ?_⟩
  rw [List.getElem?_drop, Nat.add_sub_cancel' hsince]
  exact hs

theorem phase_update_cases {ph ph' : Phase} {u : ServiceId}
    (h : Function.update s.phase v ph u = ph') : u = v ∧ ph = ph' ∨ s.phase u = ph' := by
  by_cases hu : u = v
  · subst hu
    rw [Function.update_self] at h
    exact .inl ⟨rfl, h⟩
  · rw [Function.update_of_ne hu] at h
    exact .inr h

theorem phase_update_waiting {ph ph' : Phase} {u : ServiceId}
    (h : Function.update s.phase v ph u = ph') (hne : ph ≠ ph') : s.phase u = ph' :=
  (phase_update_cases h).resolve_left fun hnew => hne hnew.2

theorem Inv.quiet {s' : Video} (h : Inv s) (hr : s'.reports = s.reports)
    (hn : ∀ idx, ∀ e ∈ s'.notifier idx, e ∈ s.notifier idx)
    (hw : ∀ v w, s'.phase v = .waiting w → s.phase v = .waiting w ∨ s.phase v = .sent w)
    (hs : ∀ v w, s'.phase v = .sent w → s.phase v = .sent w ∨ w.fetchedConnIds = ∅) :
    Inv s' where
  stamped idx e he := by
    rw [hr]
    exact h.stamped idx e (hn idx e he)
  fetched v w hph conn hc := by
    rcases hw v w hph with hph | hph
    · obtain ⟨hmem, hrep⟩ := h.fetched v w hph conn hc
      exact ⟨hmem, hrep.grow (by rw [hr, List.append_nil])⟩
    · rw [h.fresh v w hph] at hc
      exact absurd hc (Finset.notMem_empty conn)
  fresh v w hph := by
    rcases hs v w hph with hph | hf
    · exact h.fresh v w hph
    · exact hf

theorem Inv.report {s' : Video} (h : Inv s) {r : Report}
    (hr : s'.reports = s.reports ++ [(conn, r)]) (hp : s'.phase = s.phase)
    (hn : ∀ idx, ∀ e ∈ s'.notifier idx,
      e ∈ s.notifier idx ∨ e = ⟨conn, r, s.reports.length⟩) : Inv s' where
  stamped idx e he := by
    rw [hr]
    rcases hn idx e he with he | rfl
    · have hold := h.stamped idx e he
      obtain ⟨hlt, -⟩ := List.getElem?_eq_some_iff.mp hold
      rw [List.getElem?_append_left hlt]
      exact hold
    · exact List.getElem?_concat_length
  fetched v w hph c hc := by
    rw [hp] at hph
    obtain ⟨hmem, hrep⟩ := h.fetched v w hph c hc
    exact ⟨hmem, hrep.grow hr⟩
  fresh v w hph := by
    rw [hp] at hph
    exact h.fresh v w hph

/-- With no stray report, the connections counted are of the set and have reported. -/
theorem counted_reported (h : Inv s) (hph : s.phase v = .waiting w)
    (hg : ∀ e ∈ s.taken v w, e.Belongs w) :
    ∀ c ∈ w.fetchedConnIds ∪ ((s.taken v w).map (·.conn)).toFinset,
      c ∈ w.sendConnIds ∧ s.ReportedSince w c := by
  intro c hc
  rcases Finset.mem_union.mp hc with hc | hc
  · exact h.fetched v w hph c hc
  · obtain ⟨e, he, rfl⟩ := List.mem_map.mp (List.mem_toFinset.mp hc)
    have hchannel : e ∈ s.notifier v.2 := by
      unfold taken at he
      split at he
      · cases he
      · exact he
    exact ⟨(hg e he).1, reportedSince_of_belongs (h.stamped v.2 e hchannel) (hg e he)⟩

/-- The wait goes on exactly while fewer connections are counted than the frame was sent to. -/
theorem tryWaitNext_idle (hph : s.phase v = .waiting w)
    (hend : (s.tryWaitNext v).phase v = .idle) :
    w.sendConnIds.card ≤ (w.fetchedConnIds ∪ ((s.taken v w).map (·.conn)).toFinset).card := by
  by_contra hlt
  unfold tryWaitNext at hend
  simp only [hph, if_neg hlt, Function.update_self] at hend
  cases hend

/-- Counting is enough when only connections of the set are counted. -/
theorem endsReported_of_noStray (h : Inv s) {ev : Event} (hg : NoStray s ev) :
    EndsReported s ev := by
  cases ev with
  | tryWaitNext v =>
    intro w hph hend conn hconn
    have hcounted := counted_reported h hph (hg w hph)
    have hcard := tryWaitNext_idle hph hend
    have hsub : w.fetchedConnIds ∪ ((s.taken v w).map (·.conn)).toFinset ⊆ w.sendConnIds :=
      fun c hc => (hcounted c hc).1
    have heq := Finset.eq_of_subset_of_card_le hsub hcard
    rw [← heq] at hconn
    exact (hcounted conn hconn).2
  | _ => trivial

theorem inv_tryWaitNext (h : Inv s) (hg : NoStray s (.tryWaitNext v)) : Inv (s.tryWaitNext v) := by
  unfold tryWaitNext
  split
  case h_1 w hph =>
    have hcounted := counted_reported h hph (hg w hph)
    have hdrain : ∀ idx, ∀ e ∈ (if w.sendConnIds = ∅ then s else
        { s with notifier := Function.update s.notifier v.2 [] }).notifier idx,
        e ∈ s.notifier idx := by
      intro idx e he
      split at he
      · exact he
      · by_cases hi : idx = v.2
        · subst hi
          simp at he
        · simpa [Function.update_of_ne hi] using he
    have hphase : (if w.sendConnIds = ∅ then s else
        { s with notifier := Function.update s.notifier v.2 [] }).phase = s.phase := by
      split <;> rfl
    have hreports : (if w.sendConnIds = ∅ then s else
        { s with notifier := Function.update s.notifier v.2 [] }).reports = s.reports := by
      split <;> rfl
    dsimp only
    generalize (if w.sendConnIds = ∅ then s else
        { s with notifier := Function.update s.notifier v.2 [] }) = s₁ at hdrain hphase hreports
    split
    · refine h.quiet hreports hdrain (fun u x hu => .inl ?_) fun u x hu => .inl ?_
      · rw [← hphase]
        exact phase_update_waiting hu (by simp)
      · rw [← hphase]
        exact phase_update_waiting hu (by simp)
    · constructor
      · intro idx e he
        rw [show s₁.reports = s.reports from hreports]
        exact h.stamped idx e (hdrain idx e he)
      · intro u x hu c hc
        rcases phase_update_cases hu with ⟨rfl, hnew⟩ | hold
        · cases hnew
          obtain ⟨hmem, hrep⟩ := hcounted c hc
          obtain ⟨r, hr, habout⟩ := hrep
          exact ⟨hmem, r, by rw [hreports]; exact hr, habout⟩
        · have hu' : s.phase u = .waiting x := by
            rw [← hphase]
            exact hold
          obtain ⟨hmem, hrep⟩ := h.fetched u x hu' c hc
          exact ⟨hmem, hrep.grow (by rw [hreports, List.append_nil])⟩
      · intro u x hu
        refine h.fresh u x ?_
        rw [← hphase]
        exact phase_update_waiting hu (by simp)
  case h_2 => exact h

theorem inv_handleOneFrame (h : Inv s) (v : ServiceId) : Inv (s.handleOneFrame v) := by
  unfold handleOneFrame
  split
  · refine h.quiet rfl (fun _ _ he => he) (fun u x hu => .inl (phase_update_waiting hu (by simp))) fun u x hu => ?_
    rcases phase_update_cases hu with ⟨-, hnew⟩ | hold
    · cases hnew
      exact .inr rfl
    · exact .inl hold
  · exact h

theorem inv_setSend (h : Inv s) (v : ServiceId) : Inv (s.setSend v) := by
  unfold setSend
  split
  case h_1 w hph =>
    refine h.quiet rfl (fun _ _ he => he) (fun u x hu => ?_) fun u x hu => .inl (phase_update_waiting hu (by simp))
    rcases phase_update_cases hu with ⟨rfl, hnew⟩ | hold
    · cases hnew
      exact .inr hph
    · exact .inl hold
  case h_2 => exact h

/-- A service that waits no longer. -/
theorem Inv.rest {s' : Video} (h : Inv s) (hr : s'.reports = s.reports) (hn : s'.notifier = s.notifier)
    (hp : s'.phase = Function.update s.phase v .idle) : Inv s' := by
  refine h.quiet hr (fun _ _ he => hn ▸ he) (fun u x hu => .inl ?_) fun u x hu => .inl ?_
  · rw [hp] at hu
    exact phase_update_waiting hu (by simp)
  · rw [hp] at hu
    exact phase_update_waiting hu (by simp)

theorem inv_notifyVideoFrameFetched (h : Inv s) (idx : Nat) (conn : Int) (r : Report) :
    Inv (s.notifyVideoFrameFetched idx conn r) := by
  refine h.report rfl rfl fun i e he => ?_
  by_cases hi : i = idx
  · subst hi
    simp only [notifyVideoFrameFetched, Function.update_self] at he
    exact (List.mem_append.mp he).imp_right List.mem_singleton.mp
  · left
    simpa only [notifyVideoFrameFetched, Function.update_of_ne hi] using he

theorem inv_notifyVideoFrameFetchedByConnId (h : Inv s) (conn : Int) (r : Report) :
    Inv (s.notifyVideoFrameFetchedByConnId conn r) := by
  refine h.report rfl rfl fun idx e he => ?_
  dsimp only [notifyVideoFrameFetchedByConnId] at he
  split at he
  · exact (List.mem_append.mp he).imp_right List.mem_singleton.mp
  · exact .inl he

theorem inv_fetch (h : Inv s) (conn : Int) : Inv (s.fetch conn) := by
  unfold fetch
  split
  · exact h
  · rename_i f rest _
    have htaken : Inv { s with rxVideo := Function.update s.rxVideo conn rest } :=
      h.quiet rfl (fun _ _ he => he) (fun _ _ hp => .inl hp) fun _ _ hp => .inl hp
    dsimp only
    split
    · exact htaken
    · exact inv_notifyVideoFrameFetched htaken f.service.2 conn (.fetched f)

theorem inv_step (h : Inv s) (ev : Event) (hg : NoStray s ev) : Inv (s.step ev) := by
  cases ev with
  | subscribe v c => exact h.quiet rfl (fun _ _ he => he) (fun _ _ hp => .inl hp) fun _ _ hp => .inl hp
  | unsubscribe v c => exact h.quiet rfl (fun _ _ he => he) (fun _ _ hp => .inl hp) fun _ _ hp => .inl hp
  | login c a => exact h.quiet rfl (fun _ _ he => he) (fun _ _ hp => .inl hp) fun _ _ hp => .inl hp
  | handleOneFrame v => exact inv_handleOneFrame h v
  | setSend v => exact inv_setSend h v
  | tryWaitNext v => exact inv_tryWaitNext h hg
  | timeLimit v =>
    dsimp only [step]
    unfold timeLimit
    split
    · exact h.rest (v := v) rfl rfl rfl
    · exact h
  | noFrame v =>
    dsimp only [step]
    unfold noFrame
    split
    · exact h.rest (v := v) rfl rfl rfl
    · exact h
  | switch v => exact h.rest (v := v) rfl rfl rfl
  | rxVideo c => exact inv_fetch h c
  | videoReceived c f => exact inv_notifyVideoFrameFetchedByConnId h c _
  | close c => exact inv_notifyVideoFrameFetchedByConnId h c _

theorem inv_start : Inv {} where
  stamped _ _ he := by cases he
  fetched _ _ hp := by cases hp
  fresh _ _ hp := by cases hp

end

end Video

open Video

/-- In every run in which no wait takes a report that does not belong to it, a wait that ends
before the limit ends with a report of every connection that the frame was sent to. -/
theorem endsReported_throughout (evs : List Event)
    (hg : History.Guarded step NoStray {} evs) : History.Guarded step EndsReported {} evs :=
  History.guarded_of_inv (fun _ ev h hok => inv_step h ev hok)
    (fun _ _ h hok => endsReported_of_noStray h hok) inv_start hg

instance decidableWaiting (ph : Phase) (P : Wait → Prop) [∀ w, Decidable (P w)] :
    Decidable (∀ w, ph = .waiting w → P w) :=
  match ph with
  | .waiting w => decidable_of_iff (P w) ⟨fun h _ hw => by cases hw; exact h, fun h => h w rfl⟩
  | .idle | .sent _ => .isTrue fun _ h => by cases h

instance decidableNoStray (s : Video) : ∀ ev, Decidable (NoStray s ev)
  | .tryWaitNext v => inferInstanceAs
      (Decidable (∀ w, s.phase v = .waiting w → ∀ e ∈ s.taken v w, e.Belongs w))
  | .subscribe .. | .unsubscribe .. | .login .. | .handleOneFrame _ | .setSend _ | .timeLimit _
  | .noFrame _ | .switch _ | .rxVideo _ | .videoReceived .. | .close _ => .isTrue trivial

/-- A frame goes to two connections; one fetches it, the other one closes. -/
def fetchAndClose : List Event :=
  [.subscribe (.monitor, 0) 1, .subscribe (.monitor, 0) 2, .handleOneFrame (.monitor, 0),
    .setSend (.monitor, 0), .rxVideo 1, .tryWaitNext (.monitor, 0), .close 2,
    .tryWaitNext (.monitor, 0)]

theorem endsReported_fetchAndClose :
    (History.run step {} fetchAndClose).phase (.monitor, 0) = .idle ∧
      History.Guarded step EndsReported {} fetchAndClose :=
  ⟨by decide, endsReported_throughout fetchAndClose (by decide)⟩

/-- The first frame times out, and is fetched while the second one is waited for. -/
def lateFetch : List Event :=
  [.subscribe (.monitor, 0) 1, .handleOneFrame (.monitor, 0), .setSend (.monitor, 0),
    .timeLimit (.monitor, 0), .handleOneFrame (.monitor, 0), .setSend (.monitor, 0), .rxVideo 1,
    .tryWaitNext (.monitor, 0)]

/-- The wait for the second frame ends with the report of the first one. -/
theorem late_report_ends_wait :
    ¬ ∀ evs : List Event, History.Guarded step EndsReported {} evs := by
  intro hall
  have hends := (hall lateFetch).2.2.2.2.2.2.2.1
  have hreported := hends ⟨⟨(.monitor, 0), 1⟩, {1}, ∅, 0⟩ (by decide) (by decide) 1 (by decide)
  obtain ⟨r, hr, habout⟩ := hreported
  have hmem : (1, r) ∈ [((1 : Int), Report.fetched ⟨(.monitor, 0), 0⟩)] := hr
  rw [List.mem_singleton] at hmem
  cases hmem
  revert habout
  decide

end RustDesk.VideoFlow
