import RustDesk.History

/-!
# New subscribers of a service

A service with a snapshot keeps those who have just subscribed apart. The service thread
runs `snapshot`: its callback sends them what they need to begin with through `ServiceSwap`,
which moves them to the other subscribers when it is dropped, after an error as well. Every
method holds the lock of the service, so that it is one step here.
-/

namespace RustDesk

/-- What a snapshot did; a message goes to whoever is a new subscriber at that moment. -/
inductive SnapshotEntry (μ : Type)
  | began
  | sent (msg : μ) (recipients : List Int)
  | moved (ids : List Int)
  deriving DecidableEq, Repr

/-- The two maps by their keys; the subscriber under a key is the connection with that id.
`swapping` says that a callback holds a `ServiceSwap`; the log has the newest entry first. -/
structure ServiceTmpl (μ : Type) where
  needSnapshot : Bool := true
  subscribes : List Int := []
  newSubscribes : List Int := []
  swapping : Bool := false
  log : List (SnapshotEntry μ) := []
  deriving DecidableEq, Repr

inductive ServiceStep (μ : Type)
  | onSubscribe (id : Int)
  | onUnsubscribe (id : Int)
  | snapshot
  | send (msg : μ)
  | dropSwap
  deriving DecidableEq, Repr

namespace ServiceTmpl

variable {μ : Type}

def insertKey (keys : List Int) (id : Int) : List Int := if id ∈ keys then keys else id :: keys

def onSubscribe (s : ServiceTmpl μ) (id : Int) : ServiceTmpl μ :=
  if id ∈ s.subscribes then s
  else if s.needSnapshot then { s with newSubscribes := insertKey s.newSubscribes id }
  else { s with subscribes := insertKey s.subscribes id }

def onUnsubscribe (s : ServiceTmpl μ) (id : Int) : ServiceTmpl μ :=
  if id ∈ s.subscribes then { s with subscribes := s.subscribes.filter (· ≠ id) }
  else { s with newSubscribes := s.newSubscribes.filter (· ≠ id) }

/-- The callback is called only if there is a new subscriber. -/
def snapshot (s : ServiceTmpl μ) : ServiceTmpl μ :=
  if s.newSubscribes.length > 0 then { s with swapping := true, log := .began :: s.log } else s

def sendNewSubscribes (s : ServiceTmpl μ) (msg : μ) : ServiceTmpl μ :=
  { s with log := .sent msg s.newSubscribes :: s.log }

def swapNewSubscribes (s : ServiceTmpl μ) : ServiceTmpl μ :=
  { s with
    subscribes := s.newSubscribes.foldl insertKey s.subscribes
    newSubscribes := []
    swapping := false
    log := .moved s.newSubscribes :: s.log }

/-- The service thread starts a snapshot when none is running, and its callback sends or
ends only while one is. -/
def step (s : ServiceTmpl μ) : ServiceStep μ → ServiceTmpl μ
  | .onSubscribe id => s.onSubscribe id
  | .onUnsubscribe id => s.onUnsubscribe id
  | .snapshot => if s.swapping then s else s.snapshot
  | .send msg => if s.swapping then s.sendNewSubscribes msg else s
  | .dropSwap => if s.swapping then s.swapNewSubscribes else s

end ServiceTmpl

namespace ServiceSnapshot

open ServiceTmpl History

variable {μ : Type} {s : ServiceTmpl μ} {i : ServiceStep μ} {id : Int}

/-- Who received each message of the snapshot that the log ends with. -/
def recipients : List (SnapshotEntry μ) → List (List Int)
  | .sent _ ids :: log => ids :: recipients log
  | _ => []

/-- Whoever is moved received every message of that snapshot. -/
def Delivered (e : SnapshotEntry μ) (before : List (SnapshotEntry μ)) : Prop :=
  ∀ ids, e = .moved ids → ∀ id ∈ ids, ∀ group ∈ recipients before, id ∈ group

def Apart (s : ServiceTmpl μ) : Prop := ∀ id ∈ s.subscribes, id ∉ s.newSubscribes

structure Sound (s : ServiceTmpl μ) : Prop where
  apart : Apart s
  delivered : Always Delivered s.log

/-- No connection becomes a new subscriber while a snapshot is running that has sent a
message already. -/
def NoLateSubscriber (s : ServiceTmpl μ) : ServiceStep μ → Prop
  | .onSubscribe id => s.swapping = true → recipients s.log ≠ [] →
      id ∈ s.subscribes ∨ id ∈ s.newSubscribes
  | _ => True

instance (s : ServiceTmpl μ) : ∀ i, Decidable (NoLateSubscriber s i)
  | .onSubscribe _ => inferInstanceAs (Decidable (_ → _ → _ ∨ _))
  | .onUnsubscribe _ => .isTrue trivial
  | .snapshot => .isTrue trivial
  | .send _ => .isTrue trivial
  | .dropSwap => .isTrue trivial

/-! ### The two maps -/

@[simp] theorem mem_insertKey {keys : List Int} {x : Int} :
    x ∈ insertKey keys id ↔ x = id ∨ x ∈ keys := by
  unfold insertKey
  split_ifs with h
  · constructor
    · exact .inr
    · rintro (rfl | hx)
      · exact h
      · exact hx
  · exact List.mem_cons

/-- The invariant of the two maps: without a snapshot the second one is not used. -/
structure Maps (s : ServiceTmpl μ) : Prop where
  apart : Apart s
  unused : s.needSnapshot = false → s.newSubscribes = []

theorem maps_onSubscribe (h : Maps s) (id : Int) : Maps (s.onSubscribe id) := by
  unfold onSubscribe
  split_ifs with hmem hneed
  · exact h
  · refine ⟨fun x hx hn => ?_, fun hno => absurd hneed (by simp [show s.needSnapshot = false from hno])⟩
    rcases mem_insertKey.mp hn with rfl | hn
    · exact hmem hx
    · exact h.apart x hx hn
  · have hnew : s.newSubscribes = [] := h.unused (by simpa using hneed)
    refine ⟨fun x _ hn => ?_, fun _ => hnew⟩
    dsimp only at hn
    rw [hnew] at hn
    exact List.not_mem_nil hn

theorem maps_onUnsubscribe (h : Maps s) (id : Int) : Maps (s.onUnsubscribe id) := by
  unfold onUnsubscribe
  split_ifs
  · exact ⟨fun x hx hn => h.apart x (List.mem_filter.mp hx).1 hn, h.unused⟩
  · refine ⟨fun x hx hn => h.apart x hx (List.mem_filter.mp hn).1, fun hno => ?_⟩
    dsimp only
    rw [h.unused hno, List.filter_nil]

theorem maps_step (h : Maps s) (i : ServiceStep μ) : Maps (s.step i) := by
  cases i with
  | onSubscribe id => exact maps_onSubscribe h id
  | onUnsubscribe id => exact maps_onUnsubscribe h id
  | snapshot =>
    simp only [step, snapshot]
    split_ifs <;> exact ⟨h.apart, h.unused⟩
  | send msg =>
    simp only [step, sendNewSubscribes]
    split_ifs <;> exact ⟨h.apart, h.unused⟩
  | dropSwap =>
    simp only [step, swapNewSubscribes]
    split_ifs
    · exact ⟨fun x _ hn => List.not_mem_nil hn, fun _ => rfl⟩
    · exact h

theorem maps_run (s : ServiceTmpl μ) (h : Maps s) (is : List (ServiceStep μ)) :
    Maps (run step s is) := by
  induction is generalizing s with
  | nil => exact h
  | cons i is ih => exact ih (s.step i) (maps_step h i)

/-- An id is removed from one of the maps, and as they are apart it is then in neither. -/
theorem notMem_onUnsubscribe (h : Maps s) (id : Int) :
    id ∉ (s.onUnsubscribe id).subscribes ∧ id ∉ (s.onUnsubscribe id).newSubscribes := by
  unfold onUnsubscribe
  split_ifs with hmem
  · exact ⟨by simp, h.apart id hmem⟩
  · exact ⟨hmem, by simp⟩

/-! ### The messages of a snapshot -/

/-- The new subscribers have every message of the running snapshot. -/
structure Served (s : ServiceTmpl μ) : Prop extends Maps s where
  delivered : Always Delivered s.log
  served : ∀ id ∈ s.newSubscribes, ∀ group ∈ recipients s.log, id ∈ group
  idle : s.swapping = false → recipients s.log = []

theorem served_onSubscribe (h : Served s) (hok : NoLateSubscriber s (.onSubscribe id)) :
    Served (s.onSubscribe id) := by
  refine ⟨maps_onSubscribe h.toMaps id, ?_, ?_, ?_⟩
  · unfold onSubscribe
    split_ifs <;> exact h.delivered
  · unfold onSubscribe
    split_ifs with hmem hneed
    · exact h.served
    · intro x hx group hgroup
      rcases mem_insertKey.mp hx with rfl | hx
      · -- a late subscriber would be one that no message went to
        have hswap : s.swapping = true := by
          by_contra hno
          rw [show recipients s.log = [] from h.idle (by simpa using hno)] at hgroup
          exact List.not_mem_nil hgroup
        rcases hok hswap (List.ne_nil_of_mem hgroup) with hin | hin
        · exact absurd hin hmem
        · exact h.served x hin group hgroup
      · exact h.served x hx group hgroup
    · exact h.served
  · unfold onSubscribe
    split_ifs <;> exact h.idle

theorem served_step (h : Served s) (hok : NoLateSubscriber s i) : Served (s.step i) := by
  have hmaps := maps_step h.toMaps i
  cases i with
  | onSubscribe id => exact served_onSubscribe h hok
  | onUnsubscribe id =>
    refine ⟨hmaps, ?_, ?_, ?_⟩
    · simp only [step, onUnsubscribe]
      split_ifs <;> exact h.delivered
    · simp only [step, onUnsubscribe]
      split_ifs
      · exact h.served
      · exact fun x hx => h.served x (List.mem_filter.mp hx).1
    · simp only [step, onUnsubscribe]
      split_ifs <;> exact h.idle
  | snapshot =>
    simp only [step, snapshot] at hmaps ⊢
    split_ifs at hmaps ⊢ with hswap hnew
    · exact h
    · refine ⟨hmaps, ⟨?_, h.delivered⟩, fun x _ group hg => ?_, fun _ => rfl⟩
      · intro ids hids
        cases hids
      · exact absurd hg List.not_mem_nil
    · exact h
  | send msg =>
    simp only [step, sendNewSubscribes] at hmaps ⊢
    split_ifs at hmaps ⊢ with hswap
    · refine ⟨hmaps, ⟨?_, h.delivered⟩, fun x hx group hg => ?_, fun hno => ?_⟩
      · intro ids hids
        cases hids
      · rcases List.mem_cons.mp hg with rfl | hg
        · exact hx
        · exact h.served x hx group hg
      · exact absurd hswap (by simpa using hno)
    · exact h
  | dropSwap =>
    simp only [step, swapNewSubscribes] at hmaps ⊢
    split_ifs at hmaps ⊢ with hswap
    · refine ⟨hmaps, ⟨?_, h.delivered⟩, fun x hx => absurd hx List.not_mem_nil, fun _ => rfl⟩
      intro ids hids x hx
      cases hids
      exact h.served x hx
    · exact h

theorem served_init (b : Bool) : Served ({ needSnapshot := b } : ServiceTmpl μ) where
  apart := fun _ hx => absurd hx List.not_mem_nil
  unused := fun _ => rfl
  delivered := trivial
  served := fun _ hx => absurd hx List.not_mem_nil
  idle := fun _ => rfl

end ServiceSnapshot

open ServiceSnapshot History in
theorem service_snapshot_sound {μ : Type} (is : List (ServiceStep μ))
    (h : Guarded ServiceTmpl.step NoLateSubscriber {} is) :
    Throughout ServiceTmpl.step Sound {} is ∧
    ∀ id front back, is = front ++ .onUnsubscribe id :: back →
      id ∉ (run ServiceTmpl.step {} (front ++ [.onUnsubscribe id])).subscribes ∧
      id ∉ (run ServiceTmpl.step {} (front ++ [.onUnsubscribe id])).newSubscribes := by
  constructor
  · have hserved := throughout_of_guarded (fun s i => served_step) (served_init true) h
    exact throughout_imp (fun s hs => ⟨hs.apart, hs.delivered⟩) hserved
  · intro id front back _
    rw [run_append]
    exact notMem_onUnsubscribe (maps_run {} (served_init true).toMaps front) id

/-- Two connections subscribe before the snapshot, and one of them leaves after it. -/
def orderlySubscribers : List (ServiceStep Nat) :=
  [.onSubscribe 1, .onSubscribe 2, .snapshot, .send 7, .onSubscribe 1, .send 8, .dropSwap,
    .onUnsubscribe 1]

open ServiceSnapshot History in
theorem service_snapshot_orderly :
    (run ServiceTmpl.step {} orderlySubscribers).subscribes = [2] ∧
    Throughout ServiceTmpl.step Sound {} orderlySubscribers :=
  ⟨by decide, (service_snapshot_sound orderlySubscribers (by decide)).1⟩

/-- The second connection subscribes when the first message is already out. -/
def lateSubscriber : List (ServiceStep Nat) :=
  [.onSubscribe 1, .snapshot, .send 7, .onSubscribe 2, .dropSwap]

open ServiceSnapshot History in
theorem service_snapshot_late :
    2 ∈ (run ServiceTmpl.step {} lateSubscriber).subscribes ∧
    ¬ Throughout ServiceTmpl.step Sound {} lateSubscriber := by
  refine ⟨by decide, fun h => ?_⟩
  have hmoved : Delivered (.moved [2, 1]) [SnapshotEntry.sent 7 [1], .began] :=
    (throughout_last h).delivered.1
  have hmem := hmoved [2, 1] rfl 2 (by decide) [1] (by decide)
  exact absurd hmem (by decide)

end RustDesk
