import RustDesk.History
import Mathlib.Logic.Function.Basic

/-!
# The cursor of the host

The service thread looks which cursor the system shows and sends its picture to the subscribers when it
is another one. Pictures are kept by the handle of the cursor, and a subscriber is sent a picture only
once: later it gets the id, and keeps the pictures itself. New subscribers get the cursor by a snapshot.
The thread takes one step for each lock it holds; connections subscribe and leave in between.

`received` has the messages of each connection, newest first, each with the message that the service
meant when a subscriber replaced it. The colours of a picture are compressed when it is first sent.
-/

namespace RustDesk.MouseCursor

open History (run Always Guarded Throughout)

variable {δ : Type}

/-- A message about the cursor; a fresh `Message` has no union. -/
inductive CursorMsg (δ : Type)
  | empty
  | cursorData (id : Nat) (data : δ)
  | cursorId (id : Nat)
  deriving DecidableEq, Repr

structure MouseCursorSub (δ : Type) where
  id : Int
  cached : Nat → Option (CursorMsg δ) := fun _ => none

structure Delivery (δ : Type) where
  sent : CursorMsg δ
  meant : CursorMsg δ
  deriving DecidableEq, Repr

namespace MouseCursorSub

/-- What is sent, and the subscriber afterwards. -/
def send (sub : MouseCursorSub δ) (msg : CursorMsg δ) : MouseCursorSub δ × CursorMsg δ :=
  match msg with
  | .cursorData id _ =>
    match sub.cached id with
    | some cached => (sub, cached)
    | none => ({ sub with cached := Function.update sub.cached id (some (.cursorId id)) }, msg)
  | _ => (sub, msg)

@[simp] theorem id_send (sub : MouseCursorSub δ) (msg : CursorMsg δ) : (sub.send msg).1.id = sub.id := by
  unfold send
  split
  · split <;> rfl
  · rfl

end MouseCursorSub

/-- Where the service thread is between two locks. -/
inductive Phase (δ : Type)
  | repeat
  | reset
  | runCursor
  | sendShared (msg : CursorMsg δ)
  | snapshot
  | sendNewSubscribes
  | dropSwap
  deriving DecidableEq, Repr

/-- The maps of `ServiceTmpl`, the state of the callback and its thread. -/
structure State (δ : Type) where
  subscribes : List (MouseCursorSub δ) := []
  newSubscribes : List (MouseCursorSub δ) := []
  phase : Phase δ := .repeat
  mayReset : Bool := false
  hcursor : Nat := 0
  cursorData : CursorMsg δ := .empty
  cachedCursorData : Nat → Option (CursorMsg δ) := fun _ => none
  received : Int → List (Delivery δ) := fun _ => []

/-- `cursor` is what `get_cursor` gives, `none` for an error, and `data` what `get_cursor_data` would. -/
inductive Event (δ : Type)
  | onSubscribe (id : Int)
  | onUnsubscribe (id : Int)
  | service (cursor : Option (Option Nat)) (data : Nat → Option δ)

namespace State

variable (s : State δ)

def onSubscribe (id : Int) : State δ :=
  if s.subscribes.any (·.id = id) then s
  else { s with newSubscribes := { id } :: s.newSubscribes.filter (·.id ≠ id) }

def onUnsubscribe (id : Int) : State δ :=
  if s.subscribes.any (·.id = id) then { s with subscribes := s.subscribes.filter (·.id ≠ id) }
  else { s with newSubscribes := s.newSubscribes.filter (·.id ≠ id) }

/-- The channels of the connections when a message has gone to the subscribers. -/
def deliver (subs : List (MouseCursorSub δ)) (msg : CursorMsg δ) (conn : Int) : List (Delivery δ) :=
  match subs.find? (·.id = conn) with
  | some sub => ⟨(sub.send msg).2, msg⟩ :: s.received conn
  | none => s.received conn

def sendShared (msg : CursorMsg δ) : State δ :=
  { s with
    subscribes := s.subscribes.map fun sub => (sub.send msg).1
    received := s.deliver s.subscribes msg }

def sendNewSubscribes (msg : CursorMsg δ) : State δ :=
  { s with
    newSubscribes := s.newSubscribes.map fun sub => (sub.send msg).1
    received := s.deliver s.newSubscribes msg }

def swapNewSubscribes : State δ :=
  { s with
    subscribes := s.newSubscribes ++ s.subscribes.filter fun sub => !s.newSubscribes.any (·.id = sub.id)
    newSubscribes := [] }

/-- `run_cursor` until it has a message to send. -/
def runCursor (cursor : Option (Option Nat)) (data : Nat → Option δ) : State δ :=
  match cursor with
  | none => { s with phase := .repeat }
  | some none => { s with phase := .snapshot }
  | some (some hcursor) =>
    if hcursor ≠ s.hcursor then
      match s.cachedCursorData hcursor with
      | some msg => { s with hcursor, phase := .sendShared msg }
      | none =>
        match data hcursor with
        | none => { s with phase := .repeat }
        | some d =>
          { s with
            cachedCursorData := Function.update s.cachedCursorData hcursor (some (.cursorData hcursor d))
            hcursor
            phase := .sendShared (.cursorData hcursor d) }
    else { s with phase := .snapshot }

/-- A round of `repeat`, or what is left of it. -/
def service (cursor : Option (Option Nat)) (data : Nat → Option δ) : State δ :=
  match s.phase with
  | .repeat =>
    if s.subscribes.length > 0 ∨ s.newSubscribes.length > 0 then { s with mayReset := true, phase := .runCursor }
    else if s.mayReset then { s with phase := .reset }
    else s
  | .reset =>
    { s with
      hcursor := 0, cursorData := .empty, cachedCursorData := fun _ => none
      mayReset := false, phase := .repeat }
  | .runCursor => s.runCursor cursor data
  | .sendShared msg => { s.sendShared msg with cursorData := msg, phase := .snapshot }
  | .snapshot => { s with phase := if s.newSubscribes.length > 0 then .sendNewSubscribes else .repeat }
  | .sendNewSubscribes => { s.sendNewSubscribes s.cursorData with phase := .dropSwap }
  | .dropSwap => { s.swapNewSubscribes with phase := .repeat }

def step : Event δ → State δ
  | .onSubscribe id => s.onSubscribe id
  | .onUnsubscribe id => s.onUnsubscribe id
  | .service cursor data => s.service cursor data

end State

/-! ### What a connection makes of its messages -/

/-- The picture that came last under an id. -/
def picture (id : Nat) : List (CursorMsg δ) → Option δ
  | [] => none
  | .cursorData id' data :: before => if id' = id then some data else picture id before
  | _ :: before => picture id before

/-- The client shows the picture that it has kept under the id. -/
def shown : List (CursorMsg δ) → Option (CursorMsg δ)
  | [] => none
  | .cursorId id :: before => (picture id before).map (.cursorData id)
  | msg :: _ => some msg

/-- The client shows what the service meant. -/
def Resolved (d : Delivery δ) (before : List (Delivery δ)) : Prop :=
  shown (d.sent :: before.map Delivery.sent) = some d.meant

/-! ### The pictures a connection has kept -/

section

variable {s : State δ} {msg : CursorMsg δ} {subs : List (MouseCursorSub δ)} {sub : MouseCursorSub δ}
  {id : Nat} {data : δ}

/-- A message that the thread sends: of a picture it has kept, or of none. -/
def State.Hosted (s : State δ) (msg : CursorMsg δ) : Prop :=
  msg = .empty ∨ ∃ id data, msg = .cursorData id data ∧ s.cachedCursorData id = some msg

/-- Under the ids that a subscriber has been sent, its connection has the pictures of the thread. -/
def State.Knows (s : State δ) (sub : MouseCursorSub δ) : Prop :=
  ∀ id msg, sub.cached id = some msg → msg = .cursorId id ∧
    ∃ data, s.cachedCursorData id = some (.cursorData id data) ∧
      picture id ((s.received sub.id).map Delivery.sent) = some data

structure State.Coherent (s : State δ) : Prop where
  sending : ∀ msg, s.phase = .sendShared msg → s.Hosted msg
  current : s.Hosted s.cursorData
  cached : ∀ id msg, s.cachedCursorData id = some msg → ∃ data, msg = .cursorData id data
  subscribes : ∀ sub ∈ s.subscribes, s.Knows sub
  newSubscribes : ∀ sub ∈ s.newSubscribes, s.Knows sub
  resetting : s.phase = .reset →
    s.subscribes = [] ∧ ∀ sub ∈ s.newSubscribes, ∀ id, sub.cached id = none
  resolved : ∀ conn, Always Resolved (s.received conn)

theorem picture_cons_ne (h : ∀ data, msg ≠ .cursorData id data) (before : List (CursorMsg δ)) :
    picture id (msg :: before) = picture id before := by
  cases msg with
  | empty => rfl
  | cursorId id' => rfl
  | cursorData id' data =>
    have hne : id' ≠ id := fun heq => h data (by rw [heq])
    rw [picture, if_neg hne]

theorem send_cursorData_new (h : sub.cached id = none) :
    sub.send (.cursorData id data) =
      ({ sub with cached := Function.update sub.cached id (some (.cursorId id)) }, .cursorData id data) := by
  simp only [MouseCursorSub.send, h]

theorem send_cursorData_known (h : sub.cached id = some msg) :
    sub.send (.cursorData id data) = (sub, msg) := by
  simp only [MouseCursorSub.send, h]

theorem deliver_of_find {conn : Int} (h : subs.find? (·.id = conn) = some sub) :
    s.deliver subs msg conn = ⟨(sub.send msg).2, msg⟩ :: s.received conn := by
  simp only [State.deliver, h]

theorem deliver_of_none {conn : Int} (h : subs.find? (·.id = conn) = none) :
    s.deliver subs msg conn = s.received conn := by
  simp only [State.deliver, h]

/-- What is sent in place of a picture of the thread, to a connection that knows its pictures. -/
theorem send_cases (hknows : s.Knows sub) (hdata : s.cachedCursorData id = some (.cursorData id data)) :
    (sub.cached id = none ∧ (sub.send (.cursorData id data)).2 = .cursorData id data) ∨
    (sub.send (.cursorData id data)).2 = .cursorId id ∧
      picture id ((s.received sub.id).map Delivery.sent) = some data := by
  cases hcached : sub.cached id with
  | none => exact Or.inl ⟨rfl, by rw [send_cursorData_new hcached]⟩
  | some msg =>
    obtain ⟨rfl, data', hdata', hpicture⟩ := hknows id msg hcached
    rw [hdata] at hdata'
    cases hdata'
    exact Or.inr ⟨by rw [send_cursorData_known hcached], hpicture⟩

theorem picture_deliver (hsubs : ∀ sub ∈ subs, s.Knows sub) (hmsg : s.Hosted msg) {conn : Int}
    (hdata : s.cachedCursorData id = some (.cursorData id data))
    (hpicture : picture id ((s.received conn).map Delivery.sent) = some data) :
    picture id ((s.deliver subs msg conn).map Delivery.sent) = some data := by
  cases hfind : subs.find? (·.id = conn) with
  | none => rw [deliver_of_none hfind, hpicture]
  | some sub =>
    rw [deliver_of_find hfind, List.map_cons]
    rcases hmsg with rfl | ⟨id', data', rfl, hdata'⟩
    · exact (picture_cons_ne (fun _ h => by cases h) _).trans hpicture
    · rcases send_cases (hsubs sub (List.mem_of_find?_eq_some hfind)) hdata' with ⟨-, hsent⟩ | ⟨hsent, -⟩
      · rw [hsent, picture]
        split_ifs with heq
        · subst heq
          rw [hdata] at hdata'
          cases hdata'
          rfl
        · exact hpicture
      · rw [hsent]
        exact hpicture

theorem resolved_deliver (hsubs : ∀ sub ∈ subs, s.Knows sub) (hmsg : s.Hosted msg) {conn : Int}
    (h : Always Resolved (s.received conn)) : Always Resolved (s.deliver subs msg conn) := by
  cases hfind : subs.find? (·.id = conn) with
  | none => rw [deliver_of_none hfind]; exact h
  | some sub =>
    rw [deliver_of_find hfind]
    refine ⟨?_, h⟩
    have hid : sub.id = conn := by simpa using List.find?_some hfind
    rcases hmsg with rfl | ⟨id, data, rfl, hdata⟩
    · rfl
    · rcases send_cases (hsubs sub (List.mem_of_find?_eq_some hfind)) hdata with ⟨-, hsent⟩ | ⟨hsent, hpicture⟩
      · rw [Resolved, hsent]
        rfl
      · rw [hid] at hpicture
        rw [Resolved, hsent, shown, hpicture]
        rfl

theorem knows_deliver (hsubs : ∀ sub ∈ subs, s.Knows sub) (hmsg : s.Hosted msg) {s' : State δ}
    (hreceived : s'.received = s.deliver subs msg) (hcached : s'.cachedCursorData = s.cachedCursorData)
    (h : s.Knows sub) : s'.Knows sub := by
  intro id cached hid
  obtain ⟨heq, data, hdata, hpicture⟩ := h id cached hid
  refine ⟨heq, data, by rw [hcached]; exact hdata, ?_⟩
  rw [hreceived]
  exact picture_deliver hsubs hmsg hdata hpicture

/-- A subscriber that has just been sent a picture is not sent it again. -/
theorem knows_send (hsubs : ∀ sub ∈ subs, s.Knows sub) (hmsg : s.Hosted msg) {s' : State δ}
    (hreceived : s'.received = s.deliver subs msg) (hcached : s'.cachedCursorData = s.cachedCursorData)
    (hmem : sub ∈ subs) : s'.Knows (sub.send msg).1 := by
  have hkept := knows_deliver hsubs hmsg hreceived hcached (hsubs sub hmem)
  rcases hmsg with rfl | ⟨id, data, rfl, hdata⟩
  · exact hkept
  · cases hnew : sub.cached id with
    | some msg =>
      rw [send_cursorData_known hnew]
      exact hkept
    | none =>
      rw [send_cursorData_new hnew]
      intro id' cached hid'
      dsimp only at hid'
      by_cases heq : id' = id
      · subst heq
        rw [Function.update_self] at hid'
        cases hid'
        refine ⟨rfl, data, by rw [hcached]; exact hdata, ?_⟩
        rw [hreceived]
        -- the connection has the picture from the first subscriber of its id
        have hsome : (subs.find? (·.id = sub.id)).isSome := by
          rw [List.find?_isSome]
          exact ⟨sub, hmem, by simp⟩
        obtain ⟨first, hfind⟩ := Option.isSome_iff_exists.mp hsome
        have hid : first.id = sub.id := by simpa using List.find?_some hfind
        rw [deliver_of_find hfind, List.map_cons]
        rcases send_cases (hsubs first (List.mem_of_find?_eq_some hfind)) hdata with
          ⟨-, hsent⟩ | ⟨hsent, hpicture⟩
        · rw [hsent, picture, if_pos rfl]
        · rw [hsent, picture_cons_ne fun _ h => by cases h]
          rw [hid] at hpicture
          exact hpicture
      · rw [Function.update_of_ne heq] at hid'
        exact hkept id' cached hid'

end

section

variable {s s' : State δ} {msg : CursorMsg δ} {sub : MouseCursorSub δ}

theorem State.Hosted.mono (h : s.Hosted msg)
    (hcached : ∀ id msg, s.cachedCursorData id = some msg → s'.cachedCursorData id = some msg) :
    s'.Hosted msg :=
  h.imp_right fun ⟨id, data, hmsg, hdata⟩ => ⟨id, data, hmsg, hcached id msg hdata⟩

theorem State.Knows.mono (h : s.Knows sub) (hreceived : s'.received = s.received)
    (hcached : ∀ id msg, s.cachedCursorData id = some msg → s'.cachedCursorData id = some msg) :
    s'.Knows sub := by
  intro id msg hid
  obtain ⟨heq, data, hdata, hpicture⟩ := h id msg hid
  exact ⟨heq, data, hcached _ _ hdata, by rw [hreceived]; exact hpicture⟩

theorem knows_new (id : Int) : s.Knows { id } := fun _ _ h => by cases h

namespace State.Coherent

theorem hosted (h : s.Coherent) {id : Nat} (hcached : s.cachedCursorData id = some msg) : s.Hosted msg := by
  obtain ⟨data, rfl⟩ := h.cached id msg hcached
  exact Or.inr ⟨id, data, rfl, hcached⟩

theorem onSubscribe (h : s.Coherent) (id : Int) : (s.onSubscribe id).Coherent := by
  unfold State.onSubscribe
  split_ifs
  · exact h
  · refine ⟨h.sending, h.current, h.cached, h.subscribes, fun sub hsub => ?_, fun hphase => ?_, h.resolved⟩
    · rcases List.mem_cons.mp hsub with rfl | hsub
      · exact knows_new id
      · exact h.newSubscribes sub (List.mem_filter.mp hsub).1
    · obtain ⟨hnone, hnew⟩ := h.resetting hphase
      refine ⟨hnone, fun sub hsub => ?_⟩
      rcases List.mem_cons.mp hsub with rfl | hsub
      · exact fun _ => rfl
      · exact hnew sub (List.mem_filter.mp hsub).1

theorem onUnsubscribe (h : s.Coherent) (id : Int) : (s.onUnsubscribe id).Coherent := by
  unfold State.onUnsubscribe
  split_ifs with hany
  · refine ⟨h.sending, h.current, h.cached, fun sub hsub => h.subscribes sub (List.mem_filter.mp hsub).1,
      h.newSubscribes, fun hphase => ?_, h.resolved⟩
    rw [(h.resetting hphase).1] at hany
    cases hany
  · refine ⟨h.sending, h.current, h.cached, h.subscribes,
      fun sub hsub => h.newSubscribes sub (List.mem_filter.mp hsub).1, fun hphase => ?_, h.resolved⟩
    exact ⟨(h.resetting hphase).1, fun sub hsub => (h.resetting hphase).2 sub (List.mem_filter.mp hsub).1⟩

/-- The thread goes on to a phase in which it has nothing in hand. -/
theorem goesOn (h : s.Coherent) (phase : Phase δ) (hcur : Nat) (mayReset : Bool)
    (hsend : ∀ msg, phase ≠ .sendShared msg) (hreset : phase ≠ .reset) :
    State.Coherent { s with phase, hcursor := hcur, mayReset } :=
  ⟨fun msg hmsg => absurd hmsg (hsend msg), h.current, h.cached, h.subscribes, h.newSubscribes,
    fun hphase => absurd hphase hreset, h.resolved⟩

theorem runCursor (h : s.Coherent) (cursor : Option (Option Nat)) (data : Nat → Option δ) :
    (s.runCursor cursor data).Coherent := by
  unfold State.runCursor
  split
  · exact h.goesOn _ _ _ (by simp) (by simp)
  · exact h.goesOn _ _ _ (by simp) (by simp)
  · rename_i hcursor
    by_cases hne : hcursor ≠ s.hcursor
    · rw [if_pos hne]
      split
      · rename_i msg hmsg
        refine ⟨fun msg' hmsg' => ?_, h.current, h.cached, h.subscribes, h.newSubscribes,
          fun hphase => (by cases hphase), h.resolved⟩
        cases hmsg'
        exact h.hosted hmsg
      · rename_i hnone
        split
        · exact h.goesOn _ _ _ (by simp) (by simp)
        · rename_i d hd
          have hmono : ∀ id msg, s.cachedCursorData id = some msg →
              Function.update s.cachedCursorData hcursor (some (.cursorData hcursor d)) id = some msg := by
            intro id msg hid
            have hne' : id ≠ hcursor := by
              rintro rfl
              rw [hnone] at hid
              cases hid
            rw [Function.update_of_ne hne']
            exact hid
          have hnew : Function.update s.cachedCursorData hcursor (some (.cursorData hcursor d)) hcursor =
              some (.cursorData hcursor d) := Function.update_self ..
          refine ⟨fun msg hmsg => ?_, h.current.mono hmono, fun id msg hid => ?_,
            fun sub hsub => (h.subscribes sub hsub).mono rfl hmono,
            fun sub hsub => (h.newSubscribes sub hsub).mono rfl hmono,
            fun hphase => (by cases hphase), h.resolved⟩
          · cases hmsg
            exact Or.inr ⟨hcursor, d, rfl, hnew⟩
          · dsimp only at hid
            by_cases heq : id = hcursor
            · subst heq
              rw [hnew] at hid
              cases hid
              exact ⟨d, rfl⟩
            · rw [Function.update_of_ne heq] at hid
              exact h.cached id msg hid
    · rw [if_neg hne]
      exact h.goesOn _ _ _ (by simp) (by simp)

theorem service (h : s.Coherent) (cursor : Option (Option Nat)) (data : Nat → Option δ) :
    (s.service cursor data).Coherent := by
  unfold State.service
  split
  · split_ifs with hsubs hreset
    · exact h.goesOn _ _ _ (by simp) (by simp)
    · refine ⟨fun msg hmsg => (by cases hmsg), h.current, h.cached, h.subscribes, h.newSubscribes,
        fun _ => ?_, h.resolved⟩
      rw [not_or, Nat.not_lt, Nat.not_lt, Nat.le_zero, Nat.le_zero, List.length_eq_zero_iff,
        List.length_eq_zero_iff] at hsubs
      exact ⟨hsubs.1, fun sub hsub => absurd (hsubs.2 ▸ hsub) List.not_mem_nil⟩
    · exact h
  · -- nobody has been sent a picture since there was no subscriber
    rename_i hphase
    obtain ⟨hnone, hnew⟩ := h.resetting hphase
    refine ⟨fun msg hmsg => (by cases hmsg), Or.inl rfl, fun id msg hid => (by cases hid), ?_, ?_,
      fun hphase' => (by cases hphase'), h.resolved⟩
    · exact fun sub hsub => absurd (hnone ▸ hsub) List.not_mem_nil
    · intro sub hsub id msg hid
      rw [hnew sub hsub id] at hid
      cases hid
  · exact h.runCursor cursor data
  · rename_i msg hphase
    have hmsg := h.sending msg hphase
    refine ⟨fun msg' hmsg' => (by cases hmsg'), hmsg, h.cached, fun sub hsub => ?_,
      fun sub hsub => knows_deliver h.subscribes hmsg rfl rfl (h.newSubscribes sub hsub),
      fun hphase' => (by cases hphase'), fun conn => resolved_deliver h.subscribes hmsg (h.resolved conn)⟩
    obtain ⟨old, hold, rfl⟩ := List.mem_map.mp hsub
    exact knows_send h.subscribes hmsg rfl rfl hold
  · refine h.goesOn _ _ _ (fun msg => ?_) ?_
    · split_ifs <;> simp
    · split_ifs <;> simp
  · refine ⟨fun msg' hmsg' => (by cases hmsg'), h.current, h.cached,
      fun sub hsub => knows_deliver h.newSubscribes h.current rfl rfl (h.subscribes sub hsub),
      fun sub hsub => ?_, fun hphase' => (by cases hphase'),
      fun conn => resolved_deliver h.newSubscribes h.current (h.resolved conn)⟩
    obtain ⟨old, hold, rfl⟩ := List.mem_map.mp hsub
    exact knows_send h.newSubscribes h.current rfl rfl hold
  · refine ⟨fun msg' hmsg' => (by cases hmsg'), h.current, h.cached, fun sub hsub => ?_,
      fun sub hsub => absurd hsub List.not_mem_nil, fun hphase' => (by cases hphase'), h.resolved⟩
    rcases List.mem_append.mp hsub with hsub | hsub
    · exact h.newSubscribes sub hsub
    · exact h.subscribes sub (List.mem_filter.mp hsub).1

theorem step (h : s.Coherent) (e : Event δ) : (s.step e).Coherent := by
  cases e with
  | onSubscribe id => exact h.onSubscribe id
  | onUnsubscribe id => exact h.onUnsubscribe id
  | service cursor data => exact h.service cursor data

theorem start : ({} : State δ).Coherent where
  sending := fun _ hmsg => by cases hmsg
  current := Or.inl rfl
  cached := fun _ _ hid => by cases hid
  subscribes := fun _ hsub => absurd hsub List.not_mem_nil
  newSubscribes := fun _ hsub => absurd hsub List.not_mem_nil
  resetting := fun hphase => by cases hphase
  resolved := fun _ => trivial

end State.Coherent

end

/-- However connections come and go, what a client shows is what the service meant to send it. -/
theorem cursor_ids_resolve (es : List (Event δ)) :
    Throughout State.step (fun s => ∀ conn, Always Resolved (s.received conn)) {} es :=
  History.throughout_imp (fun _ h => h.resolved)
    (History.throughout_of_step (fun _ e h => h.step e) State.Coherent.start es)

/-! ### The cursor that subscribers show -/

/-- What the service meant last for a connection. -/
def State.meant (s : State δ) (conn : Int) : Option (CursorMsg δ) := (s.received conn).head?.map Delivery.meant

/-- What the client of a connection shows. -/
def State.shows (s : State δ) (conn : Int) : Option (CursorMsg δ) := shown ((s.received conn).map Delivery.sent)

/-- Every subscriber shows the cursor whose picture the thread got last; `hcursor` is `0` before it got one. -/
def State.UpToDate (s : State δ) : Prop :=
  s.phase = .repeat → ∀ sub ∈ s.subscribes,
    s.shows sub.id = some s.cursorData ∧
      (s.hcursor ≠ 0 → ∃ data, s.cursorData = .cursorData s.hcursor data)

/-- No connection subscribes between the message of a snapshot and its end. -/
def NoLateSubscriber (s : State δ) : Event δ → Prop
  | .onSubscribe id => s.phase = .dropSwap → ∃ sub ∈ s.subscribes ++ s.newSubscribes, sub.id = id
  | _ => True

structure State.Caught (s : State δ) : Prop where
  coherent : s.Coherent
  subscribes : ∀ sub ∈ s.subscribes, s.meant sub.id = some s.cursorData
  newSubscribes : s.phase = .dropSwap → ∀ sub ∈ s.newSubscribes, s.meant sub.id = some s.cursorData
  sending : ∀ msg, s.phase = .sendShared msg → ∃ data, msg = .cursorData s.hcursor data
  current : (∀ msg, s.phase ≠ .sendShared msg) → s.hcursor ≠ 0 →
    ∃ data, s.cursorData = .cursorData s.hcursor data

section

variable {s s' : State δ} {msg : CursorMsg δ} {subs : List (MouseCursorSub δ)} {conn : Int}

theorem shows_of_resolved (h : Always Resolved (s.received conn)) : s.shows conn = s.meant conn := by
  unfold State.shows State.meant
  generalize s.received conn = ds at h
  cases ds with
  | nil => rfl
  | cons d before => exact h.1

theorem meant_deliver_of_mem {sub : MouseCursorSub δ} (hmem : sub ∈ subs)
    (hreceived : s'.received = s.deliver subs msg) : s'.meant sub.id = some msg := by
  have hsome : (subs.find? (·.id = sub.id)).isSome := by
    rw [List.find?_isSome]
    exact ⟨sub, hmem, by simp⟩
  obtain ⟨first, hfind⟩ := Option.isSome_iff_exists.mp hsome
  rw [State.meant, hreceived, deliver_of_find hfind]
  rfl

theorem meant_deliver (hreceived : s'.received = s.deliver subs msg) (h : s.meant conn = some msg) :
    s'.meant conn = some msg := by
  rw [State.meant, hreceived]
  cases hfind : subs.find? (·.id = conn) with
  | none => rw [deliver_of_none hfind]; exact h
  | some sub => rw [deliver_of_find hfind]; rfl

namespace State.Caught

theorem onSubscribe (h : s.Caught) (id : Int) (hlate : NoLateSubscriber s (.onSubscribe id)) :
    (s.onSubscribe id).Caught := by
  have hcoherent := h.coherent.onSubscribe id
  unfold State.onSubscribe at hcoherent ⊢
  split_ifs at hcoherent ⊢ with hany
  · exact h
  · refine ⟨hcoherent, h.subscribes, fun hphase sub hsub => ?_, h.sending, h.current⟩
    rcases List.mem_cons.mp hsub with rfl | hsub
    · -- the connection is among those that the snapshot has just been sent to
      obtain ⟨old, hold, rfl⟩ := hlate hphase
      rcases List.mem_append.mp hold with hold | hold
      · exact absurd (List.any_eq_true.mpr ⟨old, hold, by simp⟩) hany
      · exact h.newSubscribes hphase old hold
    · exact h.newSubscribes hphase sub (List.mem_filter.mp hsub).1

theorem onUnsubscribe (h : s.Caught) (id : Int) : (s.onUnsubscribe id).Caught := by
  have hcoherent := h.coherent.onUnsubscribe id
  unfold State.onUnsubscribe at hcoherent ⊢
  split_ifs at hcoherent ⊢
  · exact ⟨hcoherent, fun sub hsub => h.subscribes sub (List.mem_filter.mp hsub).1, h.newSubscribes,
      h.sending, h.current⟩
  · exact ⟨hcoherent, h.subscribes,
      fun hphase sub hsub => h.newSubscribes hphase sub (List.mem_filter.mp hsub).1, h.sending, h.current⟩

theorem runCursor (h : s.Caught) (hphase : s.phase = .runCursor) (cursor : Option (Option Nat))
    (data : Nat → Option δ) : (s.runCursor cursor data).Caught := by
  have hcoherent := h.coherent.runCursor cursor data
  have hcurrent : s.hcursor ≠ 0 → ∃ data, s.cursorData = .cursorData s.hcursor data :=
    h.current fun msg hmsg => by rw [hphase] at hmsg; cases hmsg
  unfold State.runCursor at hcoherent ⊢
  split at hcoherent
  · exact ⟨hcoherent, h.subscribes, fun h' => (by cases h'), fun _ h' => (by cases h'), fun _ => hcurrent⟩
  · exact ⟨hcoherent, h.subscribes, fun h' => (by cases h'), fun _ h' => (by cases h'), fun _ => hcurrent⟩
  · rename_i hcursor
    by_cases hne : hcursor ≠ s.hcursor
    · simp only [if_pos hne] at hcoherent ⊢
      split at hcoherent
      · rename_i msg hmsg
        refine ⟨hcoherent, h.subscribes, fun h' => (by cases h'), fun msg' hmsg' => ?_,
          fun hsend => absurd rfl (hsend msg)⟩
        cases hmsg'
        exact h.coherent.cached hcursor msg hmsg
      · rename_i hnone
        split at hcoherent
        · rename_i hdata
          exact ⟨hcoherent, h.subscribes, fun h' => (by cases h'), fun _ h' => (by cases h'),
            fun _ => hcurrent⟩
        · rename_i d hdata
          refine ⟨hcoherent, h.subscribes, fun h' => (by cases h'), fun msg' hmsg' => ?_,
            fun hsend => absurd rfl (hsend _)⟩
          cases hmsg'
          exact ⟨d, rfl⟩
    · simp only [if_neg hne] at hcoherent ⊢
      exact ⟨hcoherent, h.subscribes, fun h' => (by cases h'), fun _ h' => (by cases h'), fun _ => hcurrent⟩

theorem service (h : s.Caught) (cursor : Option (Option Nat)) (data : Nat → Option δ) :
    (s.service cursor data).Caught := by
  have hcoherent := h.coherent.service cursor data
  unfold State.service at hcoherent ⊢
  split at hcoherent
  · rename_i hphase
    have hcurrent := h.current fun msg hmsg => by rw [hphase] at hmsg; cases hmsg
    split_ifs at hcoherent ⊢
    · exact ⟨hcoherent, h.subscribes, fun h' => (by cases h'), fun _ h' => (by cases h'), fun _ => hcurrent⟩
    · exact ⟨hcoherent, h.subscribes, fun h' => (by cases h'), fun _ h' => (by cases h'), fun _ => hcurrent⟩
    · exact h
  · rename_i hphase
    refine ⟨hcoherent, fun sub hsub => ?_, fun h' => (by cases h'), fun _ h' => (by cases h'),
      fun _ hne => absurd rfl hne⟩
    rw [(h.coherent.resetting hphase).1] at hsub
    cases hsub
  · rename_i hphase
    exact h.runCursor hphase cursor data
  · rename_i msg hphase
    refine ⟨hcoherent, fun sub hsub => ?_, fun h' => (by cases h'), fun _ h' => (by cases h'),
      fun _ _ => h.sending msg hphase⟩
    obtain ⟨old, hold, rfl⟩ := List.mem_map.mp hsub
    rw [MouseCursorSub.id_send]
    exact meant_deliver_of_mem hold rfl
  · rename_i hphase
    have hcurrent := h.current fun msg hmsg => by rw [hphase] at hmsg; cases hmsg
    exact ⟨hcoherent, h.subscribes, fun h' => (by split_ifs at h'),
      fun _ h' => (by split_ifs at h'), fun _ => hcurrent⟩
  · rename_i hphase
    have hcurrent := h.current fun msg hmsg => by rw [hphase] at hmsg; cases hmsg
    refine ⟨hcoherent, fun sub hsub => meant_deliver rfl (h.subscribes sub hsub), fun _ sub hsub => ?_,
      fun _ h' => (by cases h'), fun _ => hcurrent⟩
    obtain ⟨old, hold, rfl⟩ := List.mem_map.mp hsub
    rw [MouseCursorSub.id_send]
    exact meant_deliver_of_mem hold rfl
  · rename_i hphase
    have hcurrent := h.current fun msg hmsg => by rw [hphase] at hmsg; cases hmsg
    refine ⟨hcoherent, fun sub hsub => ?_, fun h' => (by cases h'), fun _ h' => (by cases h'),
      fun _ => hcurrent⟩
    rcases List.mem_append.mp hsub with hsub | hsub
    · exact h.newSubscribes hphase sub hsub
    · exact h.subscribes sub (List.mem_filter.mp hsub).1

theorem step (h : s.Caught) (e : Event δ) (hlate : NoLateSubscriber s e) : (s.step e).Caught := by
  cases e with
  | onSubscribe id => exact h.onSubscribe id hlate
  | onUnsubscribe id => exact h.onUnsubscribe id
  | service cursor data => exact h.service cursor data

theorem start : ({} : State δ).Caught where
  coherent := State.Coherent.start
  subscribes := fun _ hsub => absurd hsub List.not_mem_nil
  newSubscribes := fun _ _ hsub => absurd hsub List.not_mem_nil
  sending := fun _ hmsg => by cases hmsg
  current := fun _ hne => absurd rfl hne

theorem upToDate (h : s.Caught) : s.UpToDate := by
  intro hphase sub hsub
  rw [shows_of_resolved (h.coherent.resolved sub.id)]
  exact ⟨h.subscribes sub hsub, h.current fun msg hmsg => by rw [hphase] at hmsg; cases hmsg⟩

end State.Caught

end

/-- Between two rounds every subscriber shows the cursor of the host. -/
theorem subscribers_show_cursor (es : List (Event δ)) (hlate : Guarded State.step NoLateSubscriber {} es) :
    Throughout State.step State.UpToDate {} es :=
  History.throughout_imp (fun _ h => h.upToDate)
    (History.throughout_of_guarded (fun _ e h hlate => h.step e hlate) State.Caught.start hlate)

/-- The second connection subscribes between two rounds, before the cursor changes. -/
theorem subscribers_show_cursor_two :
    Throughout State.step State.UpToDate ({} : State Nat)
      [.onSubscribe 1, .service none (fun _ => none), .service (some (some 7)) (fun _ => some 70),
        .service none (fun _ => none), .service none (fun _ => none), .service none (fun _ => none),
        .service none (fun _ => none), .onSubscribe 2, .service none (fun _ => none),
        .service (some (some 8)) (fun _ => some 80), .service none (fun _ => none),
        .service none (fun _ => none), .service none (fun _ => none), .service none (fun _ => none)] :=
  subscribers_show_cursor _
    ⟨fun h => absurd h (by decide), trivial, trivial, trivial, trivial, trivial, trivial,
      fun h => absurd h (by decide), trivial, trivial, trivial, trivial, trivial, trivial, trivial⟩

end RustDesk.MouseCursor
