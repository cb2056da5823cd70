import RustDesk.ConnectionLogin
import RustDesk.ExpiringTable
import RustDesk.History

/-!
# Switching sides

The user of a machine that controls another one can ask that the other one controls it. The service makes a
uuid, which goes to the other machine over the session; there a new session is started with it, and it logs in
with the uuid in place of a password. What a session is started with can also come from a link that was
clicked, so that the service of the second machine is asked whether the uuid was really received.

Machines are named by their ids. A session with an id reaches that machine and nobody else reads it; the id of
the other side is only what it claims. Machines that are not honest send what they like, but can not guess a
uuid. Instants are in milliseconds.
-/

namespace RustDesk.SwitchSides

open History (run Guarded Throughout Always)

/-! ### The tables -/

/-- `SWITCH_SIDES_UUID` and `PENDING_SWITCH_SIDES_UUID` -/
abbrev Uuids (μ υ : Type) := ExpiringTable.Table μ υ

section

variable {μ υ : Type} [DecidableEq μ] [DecidableEq υ]

/-- `retain`, for ten seconds. -/
def retain (now : Nat) (uuids : Uuids μ υ) : Uuids μ υ := ExpiringTable.retain 10000 now uuids

def insertSwitchSidesUuid (now : Nat) (id : μ) (uuid : υ) (uuids : Uuids μ υ) : Uuids μ υ :=
  ExpiringTable.insert now id uuid uuids

def insertPendingSwitchSidesUuid (now : Nat) (id : μ) (uuid : υ) (uuids : Uuids μ υ) : Uuids μ υ :=
  ExpiringTable.insert now id uuid (retain now uuids)

def removePendingSwitchSidesUuid (now : Nat) (id : μ) (uuid : υ) (uuids : Uuids μ υ) : Uuids μ υ × Bool :=
  let uuids := retain now uuids
  if (uuids.lookup id).map (·.2) = some uuid then (ExpiringTable.remove id uuids, true) else (uuids, false)

/-- What a `SwitchSidesResponse` does to the table, and whether it lets in. The entry is gone also when the
uuid is wrong; `none` is one that does not parse. -/
def answer (now : Nat) (id : μ) (uuid : Option υ) (uuids : Uuids μ υ) : Uuids μ υ × Bool :=
  let uuids := retain now uuids
  (ExpiringTable.remove id uuids,
    match uuids.lookup id with
    | some (_, old) => uuid = some old
    | none => false)

end

/-- This is what a connection does with its message. -/
theorem onSwitchSidesResponse_eq (b : Build) (env : Env) (uuid : Bytes) (lr : LoginRequest) (s : Connection)
    (hb : b.flutterDesktop = true) :
    let s₁ := s.handleLoginRequestWithoutValidation env lr
    let uuid' := if uuid.length = 16 then some uuid else none
    let (uuids, matched) := answer env.now lr.myId uuid' s₁.switchSidesUuid
    let s₂ := { s₁ with switchSidesUuid := uuids }
    s.onSwitchSidesResponse b env uuid (some lr) =
      if matched then
        match ({ s₂ with fromSwitch := true, connAuditPrimaryAuth := .switchSides }.emit
          .switchSides).sendLogonResponseAndKeepAlive b env with
        | (s, false) => (s, false)
        | (s, true) => ((s.tryStartCm lr.myId lr.myName s.authorized).tryStartCmIpc, true)
      else (s₂, true) := by
  unfold Connection.onSwitchSidesResponse answer retain ExpiringTable.retain ExpiringTable.remove
  rw [if_pos hb]
  dsimp only
  generalize s.handleLoginRequestWithoutValidation env lr = s₁
  cases (s₁.switchSidesUuid.filter fun v => env.now - v.2.1 < 10000).lookup lr.myId with
  | none => rfl
  | some v =>
    dsimp only
    by_cases hlength : uuid.length = 16
    · rw [if_pos hlength]
      by_cases hold : uuid = v.2
      · rw [if_pos ⟨hlength, hold⟩]
        refine Eq.trans ?_ (if_pos (by rw [hold, decide_eq_true_eq])).symm
        generalize Connection.sendLogonResponseAndKeepAlive b env _ = c
        obtain ⟨s₂, keep⟩ := c
        cases keep <;> rfl
      · rw [if_neg fun h => hold h.2, if_neg (by rwa [decide_eq_true_eq, Option.some.injEq])]
    · rw [if_neg fun h => hlength h.1, if_neg hlength, if_neg (by simp)]

/-! ### The machines -/

inductive ToServer (μ υ : Type)
  | switchSidesRequest (uuid : Option υ)
  | switchSidesResponse (uuid : Option υ) (myId : μ)
  deriving DecidableEq, Repr

def ToServer.uuid {μ υ : Type} : ToServer μ υ → Option υ
  | .switchSidesRequest uuid | .switchSidesResponse uuid _ => uuid

/-- A session of `client` with `server`, with the connection that it has at the other end. `myId` is what the
connection takes the client for; `toServer` and `switchBacks` are on their way. -/
structure Link (μ υ : Type) where
  client : μ
  server : μ
  switchUuid : Option υ := none
  switchBackAllowed : Bool := false
  myId : μ
  authorized : Bool := false
  closed : Bool := false
  toServer : List (ToServer μ υ) := []
  switchBacks : Nat := 0
  deriving DecidableEq, Repr

/-- What was done, when: a user has switched sides, a machine got a request, a session has asked its service
for the uuid and has sent it in a response, a machine got a response, and a session has switched back. -/
inductive Entry (μ υ : Type)
  | switched (machine id : μ) (uuid : υ) (time : Nat)
  | requested (machine id : μ) (uuid : υ) (time : Nat)
  | consumed (l : Nat) (machine id : μ) (uuid : υ) (time : Nat) (allowed : Bool)
  | responded (l : Nat) (machine id : μ) (uuid : υ) (time : Nat)
  | answered (client machine id : μ) (uuid : Option υ) (time : Nat) (matched : Bool)
  | switchedBack (l : Nat)
  deriving DecidableEq, Repr

/-- The log has the last first. `known` are the uuids that machines which are not honest have. -/
structure Net (μ υ : Type) where
  now : Nat := 0
  switchSides : μ → Uuids μ υ := fun _ => []
  pending : μ → Uuids μ υ := fun _ => []
  links : List (Link μ υ) := []
  known : List υ := []
  log : List (Entry μ υ) := []

/-- `sent` and `reply` say that the answer of the service arrives at the session. The last two are what only
a client does that is not honest. -/
inductive Action (μ υ : Type)
  | reconnect
  | authorize
  | switchSides (uuid : υ) (sent : Bool)
  | handleHash (reply : Bool)
  | deliver
  | sendSwitchBack
  | receiveSwitchBack
  | claim (myId : μ)
  | inject (msg : ToServer μ υ)
  deriving DecidableEq, Repr

inductive Event (μ υ : Type)
  | tick (millis : Nat)
  | connect (client server : μ) (switchUuid : Option υ)
  | session (l : Nat) (action : Action μ υ)
  deriving DecidableEq, Repr

namespace Net

section

variable {μ υ : Type} [DecidableEq μ] [DecidableEq υ] (honest : μ → Bool) (s : Net μ υ)

def setLink (l : Nat) (k : Link μ υ) : Net μ υ := { s with links := s.links.set l k }

/-- `Session::switch_sides` -/
def switch (l : Nat) (k : Link μ υ) (uuid : υ) (sent : Bool) : Net μ υ :=
  let table := insertSwitchSidesUuid s.now k.server uuid (s.switchSides k.client)
  let k' := if sent then { k with toServer := k.toServer ++ [.switchSidesRequest (some uuid)] } else k
  { s.setLink l k' with
    switchSides := Function.update s.switchSides k.client table
    log := .switched k.client k.server uuid s.now :: s.log }

/-- What `handle_hash` does with a uuid. -/
def consume (l : Nat) (k : Link μ υ) (uuid : υ) (reply : Bool) : Net μ υ :=
  let (table, allowed) := removePendingSwitchSidesUuid s.now k.server uuid (s.pending k.client)
  let k := { k with switchUuid := none }
  let s := { s with pending := Function.update s.pending k.client table
                    log := .consumed l k.client k.server uuid s.now allowed :: s.log }
  if allowed && reply then
    { s.setLink l { k with switchBackAllowed := true
                           toServer := k.toServer ++ [.switchSidesResponse (some uuid) k.client] } with
      log := .responded l k.client k.server uuid s.now :: s.log }
  else s.setLink l k

/-- A request closes the connection. -/
def receiveRequest (l : Nat) (k : Link μ υ) (uuid : υ) : Net μ υ :=
  let table := insertPendingSwitchSidesUuid s.now k.myId uuid (s.pending k.server)
  { s.setLink l { k with closed := true } with
    pending := Function.update s.pending k.server table
    log := .requested k.server k.myId uuid s.now :: s.log }

/-- The connection takes the client for what the response says. -/
def receiveResponse (l : Nat) (k : Link μ υ) (uuid : Option υ) (myId : μ) : Net μ υ :=
  let (table, matched) := answer s.now myId uuid (s.switchSides k.server)
  { s.setLink l { k with myId } with
    switchSides := Function.update s.switchSides k.server table
    log := .answered k.client k.server myId uuid s.now matched :: s.log }

def receive (l : Nat) (k : Link μ υ) : ToServer μ υ → Net μ υ
  | .switchSidesRequest none => s.setLink l k
  | .switchSidesRequest (some uuid) => if k.authorized then s.receiveRequest l k uuid else s.setLink l k
  | .switchSidesResponse uuid myId => s.receiveResponse l k uuid myId

def deliver (l : Nat) (k : Link μ υ) : Net μ υ :=
  match k.toServer with
  | [] => s
  | msg :: rest =>
    if honest k.server then s.receive l { k with toServer := rest } msg
    else { s.setLink l { k with toServer := rest } with known := msg.uuid.toList ++ s.known }

/-- `consume_switch_back_permission` -/
def receiveSwitchBack (l : Nat) (k : Link μ υ) : Net μ υ :=
  let s := s.setLink l { k with switchBacks := k.switchBacks - 1, switchBackAllowed := false }
  if k.switchBackAllowed then { s with log := .switchedBack l :: s.log } else s

def act (l : Nat) (k : Link μ υ) : Action μ υ → Net μ υ
  | .reconnect => s.setLink l { k with authorized := false, closed := false, toServer := [], switchBacks := 0 }
  | .authorize => s.setLink l { k with authorized := true }
  | .switchSides uuid sent => if honest k.client then s.switch l k uuid sent else s
  | .handleHash reply =>
    match k.switchUuid with
    | some uuid => if honest k.client then s.consume l k uuid reply else s
    | none => s
  | .deliver => if k.closed then s else s.deliver honest l k
  | .sendSwitchBack => s.setLink l { k with switchBacks := k.switchBacks + 1 }
  | .receiveSwitchBack => if honest k.client && k.switchBacks ≠ 0 then s.receiveSwitchBack l k else s
  | .claim myId => if honest k.client then s else s.setLink l { k with myId }
  | .inject msg =>
    if honest k.client then s
    else { s.setLink l { k with toServer := k.toServer ++ [msg] } with known := msg.uuid.toList ++ s.known }

def step : Event μ υ → Net μ υ
  | .tick millis => { s with now := s.now + millis }
  | .connect client server switchUuid =>
    { s with links := s.links ++ [{ client, server, switchUuid, myId := client }] }
  | .session l action =>
    match s.links[l]? with
    | some k => s.act honest l k action
    | none => s

end

end Net

/-! ### What has happened -/

namespace Entry

variable {μ υ : Type}

def generated : Entry μ υ → Option υ
  | .switched _ _ uuid _ => some uuid
  | _ => none

/-- The session that an entry is about. -/
def session : Entry μ υ → Option Nat
  | .consumed l .. | .responded l .. | .switchedBack l => some l
  | _ => none

end Entry

section

variable {μ υ : Type} [DecidableEq μ] [DecidableEq υ]

/-- The last switch of a machine to an id that no response has been for. -/
def latestSwitch (machine id : μ) : List (Entry μ υ) → Option (Nat × υ)
  | [] => none
  | .switched machine' id' uuid time :: log =>
    if machine' = machine ∧ id' = id then some (time, uuid) else latestSwitch machine id log
  | .answered _ machine' id' _ _ _ :: log =>
    if machine' = machine ∧ id' = id then none else latestSwitch machine id log
  | _ :: log => latestSwitch machine id log

/-- The last request that a machine got from an id, if no session has been let to use it. -/
def latestRequest (machine id : μ) : List (Entry μ υ) → Option (Nat × υ)
  | [] => none
  | .requested machine' id' uuid time :: log =>
    if machine' = machine ∧ id' = id then some (time, uuid) else latestRequest machine id log
  | .consumed _ machine' id' _ _ allowed :: log =>
    if machine' = machine ∧ id' = id ∧ allowed then none else latestRequest machine id log
  | _ :: log => latestRequest machine id log

/-- A response lets in exactly if it has the uuid of the last switch, and a session uses exactly the uuid of the
last request, of the last ten seconds each; a session responds once at most, and then switches back once at
most. -/
def Exact : Entry μ υ → List (Entry μ υ) → Prop
  | .answered _ machine id uuid time matched, before =>
    matched = true ↔
      ∃ time' old, latestSwitch machine id before = some (time', old) ∧ time - time' < 10000 ∧ uuid = some old
  | .consumed l machine id uuid time allowed, before =>
    (allowed = true ↔ ∃ time', latestRequest machine id before = some (time', uuid) ∧ time - time' < 10000) ∧
      ∀ e ∈ before, e.session ≠ some l
  | .responded l machine id uuid time, before => before.head? = some (.consumed l machine id uuid time true)
  | .switchedBack l, before =>
    (∃ machine id uuid time, .responded l machine id uuid time ∈ before) ∧ .switchedBack l ∉ before
  | _, _ => True

/-- Who is let in as an honest machine is that machine, which was asked to control this one and did so; and
nobody is let in twice by one switch. -/
def Authentic (honest : μ → Bool) : Entry μ υ → List (Entry μ υ) → Prop
  | .answered client machine id (some uuid) time true, before =>
    (∃ t, .switched machine id uuid t ∈ before ∧ time < t + 10000) ∧
      (∀ client' machine' id' t, .answered client' machine' id' (some uuid) t true ∉ before) ∧
      (honest id = true → client = id ∧
        ∃ t t' t'' l, .switched machine id uuid t ∈ before ∧ .requested id machine uuid t' ∈ before ∧
          .responded l id machine uuid t'' ∈ before ∧ t ≤ t' ∧ t' ≤ t'' ∧ t'' ≤ time ∧ time < t + 10000)
  | _, _ => True

namespace Net

variable (s : Net μ υ)

def generated : List υ := s.log.filterMap Entry.generated

/-- A new uuid is not like any other, and nobody guesses one. -/
def Unguessed : Event μ υ → Prop
  | .session _ (.switchSides uuid _) => uuid ∉ s.generated ∧ uuid ∉ s.known
  | .session _ (.inject msg) => ∀ uuid ∈ msg.uuid, uuid ∉ s.generated ∨ uuid ∈ s.known
  | _ => True

instance : ∀ e, Decidable (s.Unguessed e)
  | .session _ (.switchSides ..) => inferInstanceAs (Decidable (_ ∧ _))
  | .session _ (.inject msg) =>
    inferInstanceAs (Decidable (∀ uuid ∈ msg.uuid, uuid ∉ s.generated ∨ uuid ∈ s.known))
  | .tick _ | .connect .. | .session _ .reconnect | .session _ .authorize | .session _ (.handleHash _)
  | .session _ .deliver | .session _ .sendSwitchBack | .session _ .receiveSwitchBack
  | .session _ (.claim _) => .isTrue trivial

end Net

end

/-! ### The tables and the log -/

section

variable {μ υ : Type} [DecidableEq μ] [DecidableEq υ] {now : Nat} {uuids : Uuids μ υ}
  {latest : μ → Option (Nat × υ)} (id : μ)

theorem holds_removePending (h : ExpiringTable.Holds 10000 now uuids latest) (uuid : υ) :
    ((removePendingSwitchSidesUuid now id uuid uuids).2 = true ↔
        ∃ time, latest id = some (time, uuid) ∧ now - time < 10000) ∧
      ExpiringTable.Holds 10000 now (removePendingSwitchSidesUuid now id uuid uuids).1
        (if (removePendingSwitchSidesUuid now id uuid uuids).2 then Function.update latest id none
          else latest) := by
  have hfound : ((retain now uuids).lookup id).map (·.2) = some uuid ↔
      ∃ time, latest id = some (time, uuid) ∧ now - time < 10000 := by
    unfold retain
    rw [h.lookup_retain, Option.map_eq_some_iff]
    constructor
    · rintro ⟨⟨time, uuid'⟩, hlive, rfl⟩
      exact ⟨time, ExpiringTable.live_eq_some.mp hlive⟩
    · rintro ⟨time, hlive⟩
      exact ⟨(time, uuid), ExpiringTable.live_eq_some.mpr hlive, rfl⟩
  unfold removePendingSwitchSidesUuid
  dsimp only
  by_cases hmatch : ((retain now uuids).lookup id).map (·.2) = some uuid
  · rw [if_pos hmatch]
    exact ⟨iff_of_true rfl (hfound.mp hmatch), h.retain.remove id⟩
  · rw [if_neg hmatch]
    exact ⟨iff_of_false Bool.false_ne_true (mt hfound.mpr hmatch), h.retain⟩

theorem answer_matched (h : ExpiringTable.Holds 10000 now uuids latest) (uuid : Option υ) :
    (answer now id uuid uuids).2 = true ↔
      ∃ time old, latest id = some (time, old) ∧ now - time < 10000 ∧ uuid = some old := by
  unfold answer retain
  dsimp only
  rw [h.lookup_retain]
  cases hlive : ExpiringTable.live 10000 now (latest id) with
  | none =>
    refine iff_of_false Bool.false_ne_true ?_
    rintro ⟨time, old, hlatest, htime, -⟩
    cases hlive.symm.trans (ExpiringTable.live_eq_some.mpr ⟨hlatest, htime⟩)
  | some v =>
    obtain ⟨hlatest, htime⟩ := ExpiringTable.live_eq_some.mp hlive
    rw [decide_eq_true_eq]
    constructor
    · intro huuid
      exact ⟨v.1, v.2, hlatest, htime, huuid⟩
    · rintro ⟨time, old, hlatest', -, huuid⟩
      rw [hlatest] at hlatest'
      cases hlatest'
      exact huuid

theorem answer_found (h : ExpiringTable.Holds 10000 now uuids latest) (uuid : Option υ)
    (hmatched : (answer now id uuid uuids).2 = true) : ∃ v ∈ uuids, uuid = some v.2.2 := by
  unfold answer at hmatched
  dsimp only at hmatched
  split at hmatched
  · rename_i old hlookup
    have hmem := (ExpiringTable.lookup_eq_some_iff_mem (ExpiringTable.keys_filter h.keys)).mp hlookup
    exact ⟨_, List.mem_of_mem_filter hmem, of_decide_eq_true hmatched⟩
  · cases hmatched

theorem holds_answer (h : ExpiringTable.Holds 10000 now uuids latest) (uuid : Option υ) :
    ExpiringTable.Holds 10000 now (answer now id uuid uuids).1 (Function.update latest id none) :=
  h.retain.remove id

end

section

variable {μ υ : Type} [DecidableEq μ] {log : List (Entry μ υ)} {m id : μ}

theorem ite_eq_update {β : Type} (m : μ) (f : μ → β) (v : β) :
    (fun id' => if m = m ∧ id = id' then v else f id') = Function.update f id v := by
  funext id'
  by_cases hid : id' = id
  · subst hid
    rw [if_pos ⟨rfl, rfl⟩, Function.update_self]
  · rw [if_neg fun h => hid h.2.symm, Function.update_of_ne hid]

theorem latestSwitch_switched (uuid : υ) (time : Nat) :
    (fun id' => latestSwitch m id' (.switched m id uuid time :: log)) =
      Function.update (fun id' => latestSwitch m id' log) id (some (time, uuid)) :=
  ite_eq_update m _ _

theorem latestSwitch_answered (client : μ) (uuid : Option υ) (time : Nat) (matched : Bool) :
    (fun id' => latestSwitch m id' (.answered client m id uuid time matched :: log)) =
      Function.update (fun id' => latestSwitch m id' log) id none :=
  ite_eq_update m _ _

theorem latestRequest_requested (uuid : υ) (time : Nat) :
    (fun id' => latestRequest m id' (.requested m id uuid time :: log)) =
      Function.update (fun id' => latestRequest m id' log) id (some (time, uuid)) :=
  ite_eq_update m _ _

theorem latestRequest_consumed (l : Nat) (uuid : υ) (time : Nat) (allowed : Bool) :
    (fun id' => latestRequest m id' (.consumed l m id uuid time allowed :: log)) =
      if allowed then Function.update (fun id' => latestRequest m id' log) id none
      else fun id' => latestRequest m id' log := by
  cases allowed with
  | false =>
    funext id'
    exact if_neg fun h => Bool.false_ne_true h.2.2
  | true =>
    refine Eq.trans (funext fun id' => if_congr ?_ rfl rfl) (ite_eq_update m _ _)
    exact and_congr_right fun _ => and_iff_left rfl

/-- One table changes as the log says, and the others with it not at all. -/
theorem holds_update {now : Nat} {tables : μ → Uuids μ υ} {latest latest' : μ → μ → Option (Nat × υ)}
    (h : ∀ m, ExpiringTable.Holds 10000 now (tables m) (latest m)) {table : Uuids μ υ}
    (hm : ExpiringTable.Holds 10000 now table (latest' m)) (hother : ∀ m', m' ≠ m → latest' m' = latest m') :
    ∀ m', ExpiringTable.Holds 10000 now (Function.update tables m table m') (latest' m') := by
  intro m'
  by_cases hne : m' = m
  · subst hne
    rwa [Function.update_self]
  · rw [Function.update_of_ne hne, hother m' hne]
    exact h m'

end

namespace Net

variable {μ υ : Type} {log : List (Entry μ υ)} {s : Net μ υ} {l : Nat} {k k' : Link μ υ}

/-- A session that has its uuid has not used it, and one that may switch back has responded. -/
def SessionOk (log : List (Entry μ υ)) (l : Nat) (k : Link μ υ) : Prop :=
  (k.switchUuid ≠ none → ∀ e ∈ log, e.session ≠ some l) ∧
    (k.switchBackAllowed = true →
      (∃ machine id uuid time, .responded l machine id uuid time ∈ log) ∧ .switchedBack l ∉ log)

theorem SessionOk.cons (h : SessionOk log l k) {e : Entry μ υ} (he : e.session ≠ some l) :
    SessionOk (e :: log) l k := by
  refine ⟨fun hu e' he' => ?_, fun hb => ?_⟩
  · rcases List.mem_cons.mp he' with rfl | he'
    · exact he
    · exact h.1 hu e' he'
  · obtain ⟨⟨machine, id, uuid, time, hmem⟩, hback⟩ := h.2 hb
    refine ⟨⟨machine, id, uuid, time, List.mem_cons_of_mem _ hmem⟩, fun hmem => ?_⟩
    rcases List.mem_cons.mp hmem with rfl | hmem
    · exact he rfl
    · exact hback hmem

theorem SessionOk.congr (h : SessionOk log l k) (hu : k'.switchUuid = k.switchUuid)
    (hb : k'.switchBackAllowed = k.switchBackAllowed) : SessionOk log l k' := by
  unfold SessionOk
  rw [hu, hb]
  exact h

theorem getElem?_setLink (hk : s.links[l]? = some k) {l' : Nat} {k'' : Link μ υ} :
    (s.setLink l k').links[l']? = some k'' ↔ l' = l ∧ k'' = k' ∨ l' ≠ l ∧ s.links[l']? = some k'' := by
  have hlt : l < s.links.length := (List.getElem?_eq_some_iff.mp hk).1
  unfold setLink
  dsimp only
  by_cases hl : l' = l
  · subst hl
    rw [List.getElem?_set_self hlt, Option.some.injEq]
    exact ⟨fun h => .inl ⟨rfl, h.symm⟩, fun h => h.elim (fun h => h.2.symm) fun h => absurd rfl h.1⟩
  · rw [List.getElem?_set_ne (Ne.symm hl)]
    exact ⟨fun h => .inr ⟨hl, h⟩, fun h => h.elim (fun h => absurd h.1 hl) (·.2)⟩

variable [DecidableEq μ]

structure Kept (s : Net μ υ) : Prop where
  sides : ∀ m, ExpiringTable.Holds 10000 s.now (s.switchSides m) fun id => latestSwitch m id s.log
  pending : ∀ m, ExpiringTable.Holds 10000 s.now (s.pending m) fun id => latestRequest m id s.log
  sessions : ∀ l k, s.links[l]? = some k → SessionOk s.log l k
  bound : ∀ e ∈ s.log, ∀ l, e.session = some l → l < s.links.length
  exact : Always Exact s.log

namespace Kept

/-- Only the uuid of a session matters, and whether it may switch back. -/
theorem setLink (h : s.Kept) (hk : s.links[l]? = some k) (hu : k'.switchUuid = k.switchUuid)
    (hb : k'.switchBackAllowed = k.switchBackAllowed) : (s.setLink l k').Kept := by
  refine ⟨h.sides, h.pending, fun l' k'' hk'' => ?_, fun e he l' hl' => ?_, h.exact⟩
  · rcases (getElem?_setLink hk).mp hk'' with ⟨rfl, rfl⟩ | ⟨-, hk''⟩
    · exact (h.sessions l' k hk).congr hu hb
    · exact h.sessions l' k'' hk''
  · exact Nat.lt_of_lt_of_eq (h.bound e he l' hl') List.length_set.symm

/-- An entry that is about no session. -/
theorem entry (h : s.Kept) {e : Entry μ υ} (he : e.session = none) {switchSides pending : μ → Uuids μ υ}
    (hsides : ∀ m, ExpiringTable.Holds 10000 s.now (switchSides m) fun id => latestSwitch m id (e :: s.log))
    (hpending : ∀ m, ExpiringTable.Holds 10000 s.now (pending m) fun id => latestRequest m id (e :: s.log))
    (hexact : Exact e s.log) : Kept { s with switchSides, pending, log := e :: s.log } := by
  have hne : ∀ l, e.session ≠ some l := fun l => by rw [he]; exact nofun
  refine ⟨hsides, hpending, fun l k hk => (h.sessions l k hk).cons (hne l), fun e' he' l hl => ?_, hexact, h.exact⟩
  rcases List.mem_cons.mp he' with rfl | he'
  · exact absurd hl (hne l)
  · exact h.bound e' he' l hl

theorem switch (h : s.Kept) (hk : s.links[l]? = some k) (uuid : υ) (sent : Bool) :
    (s.switch l k uuid sent).Kept := by
  have hset : (s.setLink l (if sent then
      { k with toServer := k.toServer ++ [.switchSidesRequest (some uuid)] } else k)).Kept := by
    cases sent <;> exact h.setLink hk rfl rfl
  refine hset.entry rfl (holds_update h.sides ?_ fun m hm => ?_) h.pending trivial
  · rw [latestSwitch_switched]
    exact (h.sides k.client).insert k.server uuid
  · funext id
    exact if_neg fun hm' => hm hm'.1.symm

theorem receiveRequest [DecidableEq υ] (h : s.Kept) (hk : s.links[l]? = some k) (hu : k'.switchUuid = k.switchUuid)
    (hb : k'.switchBackAllowed = k.switchBackAllowed) (uuid : υ) : (s.receiveRequest l k' uuid).Kept := by
  have hset : (s.setLink l { k' with closed := true }).Kept := h.setLink hk hu hb
  refine hset.entry rfl h.sides (holds_update h.pending ?_ fun m hm => ?_) trivial
  · rw [latestRequest_requested]
    exact (h.pending k'.server).retain.insert k'.myId uuid
  · funext id
    exact if_neg fun hm' => hm hm'.1.symm

theorem receiveResponse [DecidableEq υ] (h : s.Kept) (hk : s.links[l]? = some k)
    (hu : k'.switchUuid = k.switchUuid) (hb : k'.switchBackAllowed = k.switchBackAllowed) (uuid : Option υ)
    (myId : μ) : (s.receiveResponse l k' uuid myId).Kept := by
  have hset : (s.setLink l { k' with myId }).Kept := h.setLink hk hu hb
  refine hset.entry rfl (holds_update h.sides ?_ fun m hm => ?_) h.pending
    (answer_matched myId (h.sides k'.server) uuid)
  · rw [latestSwitch_answered]
    exact holds_answer myId (h.sides k'.server) uuid
  · funext id
    exact if_neg fun hm' => hm hm'.1.symm

/-- A session uses its uuid once. -/
theorem consume [DecidableEq υ] (h : s.Kept) (hk : s.links[l]? = some k) {uuid : υ}
    (huuid : k.switchUuid = some uuid) (reply : Bool) : (s.consume l k uuid reply).Kept := by
  have hlt : l < s.links.length := (List.getElem?_eq_some_iff.mp hk).1
  have hunused : ∀ e ∈ s.log, e.session ≠ some l := (h.sessions l k hk).1 (by rw [huuid]; exact nofun)
  obtain ⟨hallowed, hpending⟩ := holds_removePending k.server (h.pending k.client) uuid
  unfold Net.consume
  generalize removePendingSwitchSidesUuid s.now k.server uuid (s.pending k.client) = removed at hallowed hpending ⊢
  obtain ⟨table, allowed⟩ := removed
  dsimp only at hallowed hpending ⊢
  have hsessions : ∀ l' k', l' ≠ l → s.links[l']? = some k' →
      SessionOk (.consumed l k.client k.server uuid s.now allowed :: s.log) l' k' := fun l' k' hne hk' =>
    (h.sessions l' k' hk').cons fun heq => hne (Option.some.inj heq).symm
  have hpending' : ∀ m, ExpiringTable.Holds 10000 s.now (Function.update s.pending k.client table m) fun id =>
      latestRequest m id (.consumed l k.client k.server uuid s.now allowed :: s.log) := by
    refine holds_update h.pending ?_ fun m hm => ?_
    · rw [latestRequest_consumed]
      exact hpending
    · funext id
      exact if_neg fun hm' => hm hm'.1.symm
  have hback : ¬ k.switchBackAllowed = true := fun hb =>
    (h.sessions l k hk).2 hb |>.1.elim fun _ ⟨_, _, _, hmem⟩ => hunused _ hmem rfl
  have hbound : ∀ e ∈ Entry.consumed l k.client k.server uuid s.now allowed :: s.log, ∀ l',
      e.session = some l' → l' < s.links.length := by
    intro e he l' hl'
    rcases List.mem_cons.mp he with rfl | he
    · exact Option.some.inj hl' ▸ hlt
    · exact h.bound e he l' hl'
  cases hsent : (allowed && reply) with
  | false =>
    rw [if_neg Bool.false_ne_true]
    refine ⟨h.sides, hpending', fun l' k' hk' => ?_, fun e he l' hl' => ?_, ⟨hallowed, hunused⟩, h.exact⟩
    · rcases (getElem?_setLink hk).mp hk' with ⟨rfl, rfl⟩ | ⟨hne, hk'⟩
      · exact ⟨fun hnone => absurd rfl hnone, fun hb => absurd hb hback⟩
      · exact hsessions l' k' hne hk'
    · exact Nat.lt_of_lt_of_eq (hbound e he l' hl') List.length_set.symm
  | true =>
    obtain ⟨rfl, -⟩ := Bool.and_eq_true_iff.mp hsent
    rw [if_pos rfl]
    refine ⟨h.sides, hpending', fun l' k' hk' => ?_, fun e he l' hl' => ?_, rfl, ⟨hallowed, hunused⟩, h.exact⟩
    · rcases (getElem?_setLink hk).mp hk' with ⟨rfl, rfl⟩ | ⟨hne, hk'⟩
      · refine ⟨fun hnone => absurd rfl hnone, fun _ => ⟨⟨_, _, _, _, List.mem_cons_self⟩, fun hmem => ?_⟩⟩
        rcases List.mem_cons.mp hmem with heq | hmem
        · cases heq
        · rcases List.mem_cons.mp hmem with heq | hmem
          · cases heq
          · exact hunused _ hmem rfl
      · exact (hsessions l' k' hne hk').cons fun heq => hne (Option.some.inj heq).symm
    · refine Nat.lt_of_lt_of_eq ?_ List.length_set.symm
      rcases List.mem_cons.mp he with rfl | he
      · exact Option.some.inj hl' ▸ hlt
      · exact hbound e he l' hl'

theorem receiveSwitchBack (h : s.Kept) (hk : s.links[l]? = some k) : (s.receiveSwitchBack l k).Kept := by
  have hlt : l < s.links.length := (List.getElem?_eq_some_iff.mp hk).1
  unfold Net.receiveSwitchBack
  dsimp only
  by_cases hb : k.switchBackAllowed = true
  · rw [if_pos hb]
    obtain ⟨hunused, hallowed⟩ := h.sessions l k hk
    obtain ⟨hresponded, hback⟩ := hallowed hb
    refine ⟨h.sides, h.pending, fun l' k' hk' => ?_, fun e he l' hl' => ?_, ⟨hresponded, hback⟩, h.exact⟩
    · rcases (getElem?_setLink hk).mp hk' with ⟨rfl, rfl⟩ | ⟨hne, hk'⟩
      · refine ⟨fun hu => ?_, fun hb => absurd hb Bool.false_ne_true⟩
        obtain ⟨_, _, _, _, hmem⟩ := hresponded
        exact absurd rfl (hunused hu _ hmem)
      · exact (h.sessions l' k' hk').cons fun heq => hne (Option.some.inj heq).symm
    · refine Nat.lt_of_lt_of_eq ?_ List.length_set.symm
      rcases List.mem_cons.mp he with rfl | he
      · exact Option.some.inj hl' ▸ hlt
      · exact h.bound e he l' hl'
  · rw [if_neg hb]
    exact h.setLink hk rfl (Bool.eq_false_iff.mpr hb).symm

theorem receive [DecidableEq υ] (h : s.Kept) (hk : s.links[l]? = some k) (hu : k'.switchUuid = k.switchUuid)
    (hb : k'.switchBackAllowed = k.switchBackAllowed) (msg : ToServer μ υ) : (s.receive l k' msg).Kept := by
  cases msg with
  | switchSidesRequest uuid =>
    cases uuid with
    | none => exact h.setLink hk hu hb
    | some uuid =>
      dsimp only [Net.receive]
      split
      · exact h.receiveRequest hk hu hb uuid
      · exact h.setLink hk hu hb
  | switchSidesResponse uuid myId => exact h.receiveResponse hk hu hb uuid myId

theorem deliver [DecidableEq υ] (honest : μ → Bool) (h : s.Kept) (hk : s.links[l]? = some k) :
    (s.deliver honest l k).Kept := by
  unfold Net.deliver
  split
  · exact h
  · rename_i msg rest _
    split
    · refine h.receive hk ?_ ?_ msg <;> rfl
    · have hset : (s.setLink l { k with toServer := rest }).Kept := h.setLink hk rfl rfl
      exact ⟨hset.sides, hset.pending, hset.sessions, hset.bound, hset.exact⟩

theorem act [DecidableEq υ] (honest : μ → Bool) (h : s.Kept) (hk : s.links[l]? = some k) (action : Action μ υ) :
    (s.act honest l k action).Kept := by
  cases action with
  | reconnect => exact h.setLink hk rfl rfl
  | authorize => exact h.setLink hk rfl rfl
  | switchSides uuid sent =>
    dsimp only [Net.act]
    split
    · exact h.switch hk uuid sent
    · exact h
  | handleHash reply =>
    dsimp only [Net.act]
    split
    · rename_i uuid huuid
      split
      · exact h.consume hk huuid reply
      · exact h
    · exact h
  | deliver =>
    dsimp only [Net.act]
    split
    · exact h
    · exact h.deliver honest hk
  | sendSwitchBack => exact h.setLink hk rfl rfl
  | receiveSwitchBack =>
    dsimp only [Net.act]
    split
    · exact h.receiveSwitchBack hk
    · exact h
  | claim myId =>
    dsimp only [Net.act]
    split
    · exact h
    · exact h.setLink hk rfl rfl
  | inject msg =>
    dsimp only [Net.act]
    split
    · exact h
    · have hset : (s.setLink l { k with toServer := k.toServer ++ [msg] }).Kept := h.setLink hk rfl rfl
      exact ⟨hset.sides, hset.pending, hset.sessions, hset.bound, hset.exact⟩

theorem step [DecidableEq υ] (honest : μ → Bool) (h : s.Kept) (e : Event μ υ) : (s.step honest e).Kept := by
  cases e with
  | tick millis =>
    have hle : s.now ≤ s.now + millis := Nat.le_add_right ..
    exact ⟨fun m => (h.sides m).later hle, fun m => (h.pending m).later hle, h.sessions, h.bound, h.exact⟩
  | connect client server switchUuid =>
    refine ⟨h.sides, h.pending, fun l k hk => ?_, fun e he l hl => ?_, h.exact⟩
    · rcases Nat.lt_or_ge l s.links.length with hlt | hge
      · exact h.sessions l k ((List.getElem?_append_left hlt).symm.trans hk)
      · have hmem := List.mem_of_getElem? ((List.getElem?_append_right hge).symm.trans hk)
        obtain rfl := List.mem_singleton.mp hmem
        exact ⟨fun _ e he hl => Nat.not_lt.mpr hge (h.bound e he l hl), fun hb => absurd hb Bool.false_ne_true⟩
    · exact Nat.lt_of_lt_of_le (h.bound e he l hl) (List.length_append ▸ Nat.le_add_right ..)
  | session l action =>
    dsimp only [Net.step]
    split
    · rename_i k hk
      exact h.act honest hk action
    · exact h

end Kept

end Net

/-! ### Who has a uuid -/

section

variable {μ υ : Type} {log log' : List (Entry μ υ)} {known known' : List υ} {honest : μ → Bool} {l : Nat}
  {client server m id m' id' : μ} {uuid : υ} {t t' : Nat}

def Entry.time : Entry μ υ → Nat
  | .switched _ _ _ time | .requested _ _ _ time | .consumed _ _ _ _ time _ | .responded _ _ _ _ time
  | .answered _ _ _ _ time _ => time
  | .switchedBack _ => 0

/-- The uuid was made, or sent by a machine that is not honest. -/
def Occurs (log : List (Entry μ υ)) (known : List υ) (uuid : υ) : Prop :=
  uuid ∈ log.filterMap Entry.generated ∨ uuid ∈ known

/-- Where a uuid goes that one honest machine has made to switch to another. -/
def Meant (log : List (Entry μ υ)) (l : Nat) (client server m id : μ) (uuid : υ) : ToServer μ υ → Prop
  | .switchSidesRequest _ => client = m ∧ server = id
  | .switchSidesResponse _ myId =>
    client = id ∧ server = m ∧ myId = id ∧ ∃ time, .responded l id m uuid time ∈ log

structure Carried (honest : μ → Bool) (log : List (Entry μ υ)) (known : List υ) (l : Nat) (client server : μ)
    (msg : ToServer μ υ) : Prop where
  own : honest client = true → ∀ uuid myId, msg = .switchSidesResponse uuid myId → myId = client
  occurs : ∀ uuid ∈ msg.uuid, Occurs log known uuid
  meant : ∀ uuid ∈ msg.uuid, ∀ m id t, .switched m id uuid t ∈ log → honest id = true →
    Meant log l client server m id uuid msg

theorem latestSwitch_mem [DecidableEq μ] : ∀ {log : List (Entry μ υ)},
    latestSwitch m id log = some (t, uuid) → .switched m id uuid t ∈ log
  | [], h => by cases h
  | .switched m' id' uuid' t' :: log, h => by
    unfold latestSwitch at h
    split at h
    · rename_i heq
      obtain ⟨rfl, rfl⟩ := heq
      cases h
      exact List.mem_cons_self
    · exact List.mem_cons_of_mem _ (latestSwitch_mem h)
  | .answered _ _ _ _ _ _ :: log, h => by
    unfold latestSwitch at h
    split at h
    · cases h
    · exact List.mem_cons_of_mem _ (latestSwitch_mem h)
  | .requested .. :: log, h | .consumed .. :: log, h | .responded .. :: log, h | .switchedBack .. :: log, h =>
    List.mem_cons_of_mem _ (latestSwitch_mem (h : latestSwitch m id log = _))

theorem latestRequest_mem [DecidableEq μ] : ∀ {log : List (Entry μ υ)},
    latestRequest m id log = some (t, uuid) → .requested m id uuid t ∈ log
  | [], h => by cases h
  | .requested m' id' uuid' t' :: log, h => by
    unfold latestRequest at h
    split at h
    · rename_i heq
      obtain ⟨rfl, rfl⟩ := heq
      cases h
      exact List.mem_cons_self
    · exact List.mem_cons_of_mem _ (latestRequest_mem h)
  | .consumed _ _ _ _ _ _ :: log, h => by
    unfold latestRequest at h
    split at h
    · cases h
    · exact List.mem_cons_of_mem _ (latestRequest_mem h)
  | .switched .. :: log, h | .answered .. :: log, h | .responded .. :: log, h | .switchedBack .. :: log, h =>
    List.mem_cons_of_mem _ (latestRequest_mem (h : latestRequest m id log = _))

theorem generated_of_switched (h : .switched m id uuid t ∈ log) : uuid ∈ log.filterMap Entry.generated :=
  List.mem_filterMap.mpr ⟨_, h, rfl⟩

/-- A uuid is made for one switch. -/
theorem switched_unique (hdistinct : (log.filterMap Entry.generated).Nodup) (h : .switched m id uuid t ∈ log)
    (h' : .switched m' id' uuid t' ∈ log) : m = m' ∧ id = id' ∧ t = t' := by
  induction log with
  | nil => cases h
  | cons e log ih =>
    rcases List.mem_cons.mp h with rfl | hmem
    · rcases List.mem_cons.mp h' with heq | hmem'
      · cases heq
        exact ⟨rfl, rfl, rfl⟩
      · exact absurd (generated_of_switched hmem') (List.nodup_cons.mp hdistinct).1
    · rcases List.mem_cons.mp h' with rfl | hmem'
      · exact absurd (generated_of_switched hmem) (List.nodup_cons.mp hdistinct).1
      · refine ih (hdistinct.sublist ?_) hmem hmem'
        exact (List.sublist_cons_self e log).filterMap _

theorem generated_of_answered (h : Always (Authentic honest) log)
    (hmem : .answered client m id (some uuid) t true ∈ log) : uuid ∈ log.filterMap Entry.generated := by
  obtain ⟨after, before, rfl⟩ := List.append_of_mem hmem
  obtain ⟨⟨t', hswitched, -⟩, -⟩ := History.always_split h
  exact generated_of_switched (List.mem_append_right _ (List.mem_cons_of_mem _ hswitched))

/-- More may be known and may have happened, as long as no uuid is made that occurs already. -/
theorem Carried.mono {msg : ToServer μ υ} (h : Carried honest log known l client server msg) (hlog : log ⊆ log')
    (hswitched : ∀ m id uuid t, .switched m id uuid t ∈ log' → Occurs log known uuid → .switched m id uuid t ∈ log)
    (hknown : known ⊆ known') : Carried honest log' known' l client server msg := by
  refine ⟨h.own, fun uuid huuid => ?_, fun uuid huuid m id t hmem hid => ?_⟩
  · refine (h.occurs uuid huuid).imp (fun hmem => ?_) fun hmem => hknown hmem
    obtain ⟨e, he, heq⟩ := List.mem_filterMap.mp hmem
    exact List.mem_filterMap.mpr ⟨e, hlog he, heq⟩
  · have hmeant := h.meant uuid huuid m id t (hswitched m id uuid t hmem (h.occurs uuid huuid)) hid
    cases msg with
    | switchSidesRequest _ => exact hmeant
    | switchSidesResponse _ _ =>
      obtain ⟨hclient, hserver, hmyId, time, hmem⟩ := hmeant
      exact ⟨hclient, hserver, hmyId, time, hlog hmem⟩

end

namespace Net

variable {μ υ : Type} {honest : μ → Bool} {s : Net μ υ} {l : Nat} {k k' : Link μ υ}

def LinkOk (honest : μ → Bool) (log : List (Entry μ υ)) (known : List υ) (l : Nat) (k : Link μ υ) : Prop :=
  (honest k.client = true → k.myId = k.client) ∧
    ∀ msg ∈ k.toServer, Carried honest log known l k.client k.server msg

/-- A uuid that one honest machine made to switch to another is only on the way between the two. -/
structure Safe (honest : μ → Bool) (s : Net μ υ) : Prop where
  times : ∀ e ∈ s.log, e.time ≤ s.now
  distinct : s.generated.Nodup
  owner : ∀ m id uuid t, .switched m id uuid t ∈ s.log → honest m = true
  links : ∀ l k, s.links[l]? = some k → LinkOk honest s.log s.known l k
  known : ∀ m id uuid t, .switched m id uuid t ∈ s.log → honest id = true → uuid ∉ s.known
  requested : ∀ m id uuid t, .requested m id uuid t ∈ s.log → Occurs s.log s.known uuid ∧
    ∀ m' id' t', .switched m' id' uuid t' ∈ s.log → honest id' = true → m = id' ∧ id = m' ∧ t' ≤ t
  responded : ∀ l m id uuid t, .responded l m id uuid t ∈ s.log → ∃ t' ≤ t, .requested m id uuid t' ∈ s.log
  spent : ∀ m v, v ∈ s.switchSides m → ∀ client m' id t,
    .answered client m' id (some v.2.2) t true ∉ s.log
  authentic : Always (Authentic honest) s.log

theorem LinkOk.mono {log log' : List (Entry μ υ)} {known known' : List υ} (h : LinkOk honest log known l k)
    (hlog : log ⊆ log')
    (hswitched : ∀ m id uuid t, .switched m id uuid t ∈ log' → Occurs log known uuid → .switched m id uuid t ∈ log)
    (hknown : known ⊆ known') : LinkOk honest log' known' l k :=
  ⟨h.1, fun msg hmsg => (h.2 msg hmsg).mono hlog hswitched hknown⟩

namespace Safe

theorem start : ({} : Net μ υ).Safe honest where
  times _ he := absurd he List.not_mem_nil
  distinct := List.nodup_nil
  owner _ _ _ _ he := absurd he List.not_mem_nil
  links _ _ hk := by cases hk
  known _ _ _ _ he := absurd he List.not_mem_nil
  requested _ _ _ _ he := absurd he List.not_mem_nil
  responded _ _ _ _ _ he := absurd he List.not_mem_nil
  spent _ _ hv := absurd hv List.not_mem_nil
  authentic := trivial

theorem setLink (h : s.Safe honest) (hk : s.links[l]? = some k) (hok : LinkOk honest s.log s.known l k') :
    (s.setLink l k').Safe honest := by
  refine ⟨h.times, h.distinct, h.owner, fun l' k'' hk'' => ?_, h.known, h.requested, h.responded, h.spent,
    h.authentic⟩
  rcases (getElem?_setLink hk).mp hk'' with ⟨rfl, rfl⟩ | ⟨-, hk''⟩
  · exact hok
  · exact h.links l' k'' hk''

/-- An entry that makes no uuid. -/
theorem entry (h : s.Safe honest) {e : Entry μ υ} (htime : e.time ≤ s.now) (hgenerated : e.generated = none)
    (hrequested : ∀ m id uuid t, e = .requested m id uuid t → Occurs s.log s.known uuid ∧
      ∀ m' id' t', .switched m' id' uuid t' ∈ s.log → honest id' = true → m = id' ∧ id = m' ∧ t' ≤ t)
    (hresponded : ∀ l m id uuid t, e = .responded l m id uuid t → ∃ t' ≤ t, .requested m id uuid t' ∈ s.log)
    {switchSides pending : μ → Uuids μ υ}
    (hspent : ∀ m v, v ∈ switchSides m → ∀ client m' id t, .answered client m' id (some v.2.2) t true ∉ e :: s.log)
    (hauthentic : Authentic honest e s.log) :
    Safe honest { s with switchSides, pending, log := e :: s.log } := by
  have hswitched : ∀ m id uuid t, .switched m id uuid t ∈ e :: s.log → .switched m id uuid t ∈ s.log := by
    intro m id uuid t hmem
    rcases List.mem_cons.mp hmem with rfl | hmem
    · cases hgenerated
    · exact hmem
  have hsub : s.log ⊆ e :: s.log := List.subset_cons_self e s.log
  have hoccurs : ∀ uuid, Occurs s.log s.known uuid → Occurs (e :: s.log) s.known uuid := fun uuid hu =>
    hu.imp_left fun hmem => by rwa [List.filterMap_cons_none hgenerated]
  refine ⟨fun e' he' => ?_, ?_, fun m id uuid t hmem => h.owner m id uuid t (hswitched _ _ _ _ hmem),
    fun l k hk => (h.links l k hk).mono hsub (fun m id uuid t hmem _ => hswitched m id uuid t hmem) fun _ => id,
    fun m id uuid t hmem => h.known m id uuid t (hswitched _ _ _ _ hmem), fun m id uuid t hmem => ?_,
    fun l m id uuid t hmem => ?_, hspent, hauthentic, h.authentic⟩
  · rcases List.mem_cons.mp he' with rfl | he'
    · exact htime
    · exact h.times e' he'
  · unfold generated
    rw [List.filterMap_cons_none hgenerated]
    exact h.distinct
  · have hold : Occurs s.log s.known uuid ∧ ∀ m' id' t', .switched m' id' uuid t' ∈ s.log →
        honest id' = true → m = id' ∧ id = m' ∧ t' ≤ t := by
      rcases List.mem_cons.mp hmem with heq | hmem
      · exact hrequested m id uuid t heq.symm
      · exact h.requested m id uuid t hmem
    exact ⟨hoccurs uuid hold.1, fun m' id' t' hmem' => hold.2 m' id' t' (hswitched _ _ _ _ hmem')⟩
  · have hold : ∃ t' ≤ t, .requested m id uuid t' ∈ s.log := by
      rcases List.mem_cons.mp hmem with heq | hmem
      · exact hresponded l m id uuid t heq.symm
      · exact h.responded l m id uuid t hmem
    obtain ⟨t', hle, hmem'⟩ := hold
    exact ⟨t', hle, hsub hmem'⟩

/-- What a machine that is not honest gets or sends. -/
theorem learn (h : s.Safe honest) {uuids : List υ}
    (hpublic : ∀ uuid ∈ uuids, ∀ m id t, .switched m id uuid t ∈ s.log → honest id = false) :
    Safe honest { s with known := uuids ++ s.known } := by
  have hsub : s.known ⊆ uuids ++ s.known := List.subset_append_right uuids s.known
  refine ⟨h.times, h.distinct, h.owner, fun l k hk => ?_, fun m id uuid t hmem hid hknown => ?_,
    fun m id uuid t hmem => ?_, h.responded, h.spent, h.authentic⟩
  · exact (h.links l k hk).mono (fun _ => id) (fun _ _ _ _ hmem _ => hmem) hsub
  · rcases List.mem_append.mp hknown with hknown | hknown
    · exact Bool.false_ne_true ((hpublic uuid hknown m id t hmem).symm.trans hid)
    · exact h.known m id uuid t hmem hid hknown
  · obtain ⟨hoccurs, hmeant⟩ := h.requested m id uuid t hmem
    exact ⟨hoccurs.imp_right fun hknown => hsub hknown, hmeant⟩

theorem mem_update [DecidableEq μ] {tables : μ → Uuids μ υ} {table : Uuids μ υ} {m m' : μ} {v : μ × Nat × υ}
    (hv : v ∈ Function.update tables m table m') : m' = m ∧ v ∈ table ∨ m' ≠ m ∧ v ∈ tables m' := by
  by_cases hm : m' = m
  · subst hm
    rw [Function.update_self] at hv
    exact .inl ⟨rfl, hv⟩
  · rw [Function.update_of_ne hm] at hv
    exact .inr ⟨hm, hv⟩

/-- An entry that lets nobody in does not change what is spent. -/
theorem spent_cons (h : s.Safe honest) {e : Entry μ υ}
    (he : ∀ client m id uuid t, e ≠ .answered client m id (some uuid) t true) :
    ∀ m v, v ∈ s.switchSides m → ∀ client m' id t, .answered client m' id (some v.2.2) t true ∉ e :: s.log := by
  intro m v hv client m' id t hmem
  rcases List.mem_cons.mp hmem with heq | hmem
  · exact he _ _ _ _ _ heq.symm
  · exact h.spent m v hv client m' id t hmem

theorem inject (h : s.Safe honest) (hk : s.links[l]? = some k) (hclient : ¬ honest k.client = true)
    {msg : ToServer μ υ} (hunguessed : ∀ uuid ∈ msg.uuid, uuid ∉ s.generated ∨ uuid ∈ s.known) :
    Safe honest { s.setLink l { k with toServer := k.toServer ++ [msg] } with
      known := msg.uuid.toList ++ s.known } := by
  have hlearn : Safe honest { s with known := msg.uuid.toList ++ s.known } := by
    refine h.learn fun uuid huuid m id t hswitched => Bool.eq_false_iff.mpr fun hid => ?_
    rcases hunguessed uuid (Option.mem_toList.mp huuid) with hnew | hknown
    · exact hnew (generated_of_switched hswitched)
    · exact h.known m id uuid t hswitched hid hknown
  obtain ⟨hmyId, hcarried⟩ := hlearn.links l k hk
  refine hlearn.setLink hk ⟨hmyId, fun msg' hmsg' => ?_⟩
  rcases List.mem_append.mp hmsg' with hmsg' | hmsg'
  · exact hcarried msg' hmsg'
  · obtain rfl := List.mem_singleton.mp hmsg'
    have hknown : ∀ uuid ∈ msg'.uuid, uuid ∈ msg'.uuid.toList ++ s.known := fun uuid huuid =>
      List.mem_append_left _ (Option.mem_toList.mpr huuid)
    exact ⟨fun hhonest => absurd hhonest hclient, fun uuid huuid => .inr (hknown uuid huuid),
      fun uuid huuid m id t hswitched hid => absurd (hknown uuid huuid) (hlearn.known m id uuid t hswitched hid)⟩

theorem receiveSwitchBack (h : s.Safe honest) (hk : s.links[l]? = some k) :
    (s.receiveSwitchBack l k).Safe honest := by
  have hset : (s.setLink l { k with switchBacks := k.switchBacks - 1, switchBackAllowed := false }).Safe honest :=
    h.setLink hk (h.links l k hk)
  unfold Net.receiveSwitchBack
  dsimp only
  split
  · exact hset.entry (Nat.zero_le _) rfl (fun _ _ _ _ heq => (by cases heq)) (fun _ _ _ _ _ heq => (by cases heq))
      (h.spent_cons fun _ _ _ _ _ heq => (by cases heq)) trivial
  · exact hset

variable [DecidableEq μ]

theorem switch (h : s.Safe honest) (hk : s.links[l]? = some k) (hclient : honest k.client = true) {uuid : υ}
    (hnew : uuid ∉ s.generated) (hunknown : uuid ∉ s.known) (sent : Bool) :
    (s.switch l k uuid sent).Safe honest := by
  have hfresh : ¬ Occurs s.log s.known uuid := fun hoccurs => hoccurs.elim hnew hunknown
  have hswitched : ∀ m id uuid' t, .switched m id uuid' t ∈ Entry.switched k.client k.server uuid s.now :: s.log →
      Occurs s.log s.known uuid' → .switched m id uuid' t ∈ s.log := by
    intro m id uuid' t hmem hoccurs
    rcases List.mem_cons.mp hmem with heq | hmem
    · cases heq
      exact absurd hoccurs hfresh
    · exact hmem
  have hsub : s.log ⊆ Entry.switched k.client k.server uuid s.now :: s.log := List.subset_cons_self _ _
  have hmono : ∀ l' k', LinkOk honest s.log s.known l' k' →
      LinkOk honest (.switched k.client k.server uuid s.now :: s.log) s.known l' k' := fun _ _ hok =>
    hok.mono hsub hswitched fun _ => id
  have hrequest : Carried honest (.switched k.client k.server uuid s.now :: s.log) s.known l k.client k.server
      (.switchSidesRequest (some uuid)) := by
    refine ⟨fun _ _ _ heq => (by cases heq), fun uuid' huuid' => ?_, fun uuid' huuid' m id t hmem hid => ?_⟩
    · cases huuid'
      exact .inl (List.mem_cons_self)
    · cases huuid'
      rcases List.mem_cons.mp hmem with heq | hmem
      · cases heq
        exact ⟨rfl, rfl⟩
      · exact absurd (generated_of_switched hmem) hnew
  have hset : LinkOk honest (.switched k.client k.server uuid s.now :: s.log) s.known l
      (if sent then { k with toServer := k.toServer ++ [.switchSidesRequest (some uuid)] } else k) := by
    have hold := hmono l k (h.links l k hk)
    cases sent with
    | false => exact hold
    | true =>
      refine ⟨hold.1, fun msg hmsg => ?_⟩
      rcases List.mem_append.mp hmsg with hmsg | hmsg
      · exact hold.2 msg hmsg
      · obtain rfl := List.mem_singleton.mp hmsg
        exact hrequest
  refine ⟨fun e he => ?_, ?_, fun m id uuid' t hmem => ?_, fun l' k' hk' => ?_, fun m id uuid' t hmem hid => ?_,
    fun m id uuid' t hmem => ?_, fun l m id uuid' t hmem => ?_, fun m v hv client m' id t hmem => ?_, trivial,
    h.authentic⟩
  · rcases List.mem_cons.mp he with rfl | he
    · exact Nat.le_refl _
    · exact h.times e he
  · exact List.nodup_cons.mpr ⟨hnew, h.distinct⟩
  · rcases List.mem_cons.mp hmem with heq | hmem
    · cases heq
      exact hclient
    · exact h.owner m id uuid' t hmem
  · rcases (getElem?_setLink hk).mp hk' with ⟨rfl, rfl⟩ | ⟨-, hk'⟩
    · exact hset
    · exact hmono l' k' (h.links l' k' hk')
  · rcases List.mem_cons.mp hmem with heq | hmem
    · cases heq
      exact hunknown
    · exact h.known m id uuid' t hmem hid
  · rcases List.mem_cons.mp hmem with heq | hmem
    · cases heq
    · obtain ⟨hoccurs, hmeant⟩ := h.requested m id uuid' t hmem
      refine ⟨hoccurs.imp_left fun hmem => List.mem_cons_of_mem _ hmem, fun m' id' t' hmem' hid => ?_⟩
      exact hmeant m' id' t' (hswitched _ _ _ _ hmem' hoccurs) hid
  · rcases List.mem_cons.mp hmem with heq | hmem
    · cases heq
    · obtain ⟨t', hle, hmem'⟩ := h.responded l m id uuid' t hmem
      exact ⟨t', hle, hsub hmem'⟩
  · rcases List.mem_cons.mp hmem with heq | hmem
    · cases heq
    · rcases mem_update hv with ⟨-, hinsert⟩ | ⟨-, hold⟩
      · rcases List.mem_cons.mp hinsert with rfl | hold
        · exact hnew (generated_of_answered h.authentic hmem)
        · exact h.spent _ v (List.mem_of_mem_filter hold) client m' id t hmem
      · exact h.spent m v hold client m' id t hmem

theorem switched_of_mem (hkept : s.Kept) {m : μ} {v : μ × Nat × υ} (hv : v ∈ s.switchSides m) :
    .switched m v.1 v.2.2 v.2.1 ∈ s.log :=
  latestSwitch_mem ((hkept.sides m).mem hv)

/-- The uuid of a request comes from the machine that the connection takes its client for. -/
theorem receiveRequest [DecidableEq υ] (h : s.Safe honest) (hk : s.links[l]? = some k)
    (hok : LinkOk honest s.log s.known l k') {uuid : υ}
    (hcarried : Carried honest s.log s.known l k'.client k'.server (.switchSidesRequest (some uuid))) :
    (s.receiveRequest l k' uuid).Safe honest := by
  have hset : (s.setLink l { k' with closed := true }).Safe honest := h.setLink hk hok
  refine hset.entry (Nat.le_refl _) rfl (fun m id uuid' t heq => ?_) (fun _ _ _ _ _ heq => (by cases heq))
    (h.spent_cons fun _ _ _ _ _ heq => (by cases heq)) trivial
  cases heq
  refine ⟨hcarried.occurs uuid rfl, fun m' id' t' hmem hid => ?_⟩
  obtain ⟨rfl, rfl⟩ := hcarried.meant uuid rfl m' id' t' hmem hid
  exact ⟨rfl, hok.1 (h.owner _ _ _ _ hmem), h.times _ hmem⟩

theorem receiveResponse [DecidableEq υ] (h : s.Safe honest) (hkept : s.Kept) (hk : s.links[l]? = some k)
    (hok : LinkOk honest s.log s.known l k') {uuid : Option υ} {myId : μ}
    (hcarried : Carried honest s.log s.known l k'.client k'.server (.switchSidesResponse uuid myId)) :
    (s.receiveResponse l k' uuid myId).Safe honest := by
  have hset : (s.setLink l { k' with myId }).Safe honest := by
    refine h.setLink hk ⟨fun hclient => ?_, hok.2⟩
    exact hcarried.own hclient uuid myId rfl
  have hmatched := answer_matched myId (hkept.sides k'.server) uuid
  have htable : ∀ v ∈ (answer s.now myId uuid (s.switchSides k'.server)).1,
      v ∈ s.switchSides k'.server ∧ v.1 ≠ myId := by
    intro v hv
    obtain ⟨hmem, hne⟩ := List.mem_filter.mp hv
    exact ⟨List.mem_of_mem_filter hmem, of_decide_eq_true hne⟩
  have hfound := answer_found myId (hkept.sides k'.server) uuid
  unfold Net.receiveResponse
  generalize answer s.now myId uuid (s.switchSides k'.server) = answered at hmatched htable hfound ⊢
  obtain ⟨table, matched⟩ := answered
  dsimp only at hmatched htable hfound ⊢
  have hspent : ∀ m v, v ∈ Function.update s.switchSides k'.server table m → ∀ client m' id t,
      .answered client m' id (some v.2.2) t true ∉ s.log := by
    intro m v hv client m' id t hmem
    rcases mem_update hv with ⟨-, hv⟩ | ⟨-, hv⟩
    · exact h.spent _ v (htable v hv).1 client m' id t hmem
    · exact h.spent m v hv client m' id t hmem
  cases matched with
  | false =>
    refine hset.entry (Nat.le_refl _) rfl (fun _ _ _ _ heq => (by cases heq)) (fun _ _ _ _ _ heq => (by cases heq))
      (fun m v hv client m' id t hmem => ?_) ?_
    · rcases List.mem_cons.mp hmem with heq | hmem
      · cases heq
      · exact hspent m v hv client m' id t hmem
    · cases uuid <;> trivial
  | true =>
    obtain ⟨t, old, hlatest, hrecent, rfl⟩ := hmatched.mp rfl
    have hswitched := latestSwitch_mem hlatest
    refine hset.entry (Nat.le_refl _) rfl (fun _ _ _ _ heq => (by cases heq)) (fun _ _ _ _ _ heq => (by cases heq))
      (fun m v hv client m' id t' hmem => ?_) ⟨?_, ?_, ?_⟩
    · rcases List.mem_cons.mp hmem with heq | hmem
      · injection heq with _ _ _ huuid
        obtain ⟨m'', id', old'⟩ := v
        cases huuid
        rcases mem_update hv with ⟨-, hv⟩ | ⟨hne, hv⟩
        · obtain ⟨hmem, hne⟩ := htable _ hv
          exact hne (switched_unique h.distinct (switched_of_mem hkept hmem) hswitched).2.1
        · exact hne (switched_unique h.distinct (switched_of_mem hkept hv) hswitched).1
      · exact hspent m v hv client m' id t' hmem
    · exact ⟨t, hswitched, by omega⟩
    · obtain ⟨v, hv, heq⟩ := hfound rfl
      cases heq
      exact h.spent k'.server v hv
    · intro hid
      obtain ⟨hclient, -, -, t'', hresponded⟩ := hcarried.meant old rfl k'.server myId t hswitched hid
      obtain ⟨t', hle, hrequested⟩ := h.responded l myId k'.server old t'' hresponded
      obtain ⟨-, hmeant⟩ := h.requested myId k'.server old t' hrequested
      obtain ⟨-, -, hle'⟩ := hmeant k'.server myId t hswitched hid
      exact ⟨hclient, t, t', t'', l, hswitched, hrequested, hresponded, hle', hle, h.times _ hresponded, by omega⟩

theorem receive [DecidableEq υ] (h : s.Safe honest) (hkept : s.Kept) (hk : s.links[l]? = some k)
    (hok : LinkOk honest s.log s.known l k') {msg : ToServer μ υ}
    (hcarried : Carried honest s.log s.known l k'.client k'.server msg) : (s.receive l k' msg).Safe honest := by
  cases msg with
  | switchSidesRequest uuid =>
    cases uuid with
    | none => exact h.setLink hk hok
    | some uuid =>
      dsimp only [Net.receive]
      split
      · exact h.receiveRequest hk hok hcarried
      · exact h.setLink hk hok
  | switchSidesResponse uuid myId => exact h.receiveResponse hkept hk hok hcarried

/-- A machine that is not honest gets no uuid that is meant for an honest one. -/
theorem deliver [DecidableEq υ] (h : s.Safe honest) (hkept : s.Kept) (hk : s.links[l]? = some k) :
    (s.deliver honest l k).Safe honest := by
  obtain ⟨hmyId, hcarried⟩ := h.links l k hk
  unfold Net.deliver
  split
  · exact h
  · rename_i msg rest hto
    rw [hto] at hcarried
    have hok : LinkOk honest s.log s.known l { k with toServer := rest } :=
      ⟨hmyId, fun msg' hmsg' => hcarried msg' (List.mem_cons_of_mem _ hmsg')⟩
    have hmsg := hcarried msg List.mem_cons_self
    by_cases hserver : honest k.server = true
    · rw [if_pos hserver]
      exact h.receive hkept hk hok hmsg
    · rw [if_neg hserver]
      refine (h.setLink hk hok).learn fun uuid huuid m id t hswitched => ?_
      refine Bool.eq_false_iff.mpr fun hid => ?_
      have hmeant := hmsg.meant uuid (Option.mem_toList.mp huuid) m id t hswitched hid
      cases msg with
      | switchSidesRequest _ => exact hserver (hmeant.2 ▸ hid)
      | switchSidesResponse _ _ => exact hserver (hmeant.2.1 ▸ h.owner m id uuid t hswitched)

/-- The service has got the uuid of a response in a request. -/
theorem consume [DecidableEq υ] (h : s.Safe honest) (hkept : s.Kept) (hk : s.links[l]? = some k) (uuid : υ)
    (reply : Bool) : (s.consume l k uuid reply).Safe honest := by
  have hallowed := (holds_removePending k.server (hkept.pending k.client) uuid).1
  unfold Net.consume
  generalize removePendingSwitchSidesUuid s.now k.server uuid (s.pending k.client) = removed at hallowed ⊢
  obtain ⟨table, allowed⟩ := removed
  dsimp only at hallowed ⊢
  have hconsumed : Safe honest { s with
      pending := Function.update s.pending k.client table
      log := .consumed l k.client k.server uuid s.now allowed :: s.log } :=
    h.entry (Nat.le_refl _) rfl (fun _ _ _ _ heq => (by cases heq)) (fun _ _ _ _ _ heq => (by cases heq))
      (h.spent_cons fun _ _ _ _ _ heq => (by cases heq)) trivial
  cases hsent : (allowed && reply) with
  | false =>
    rw [if_neg Bool.false_ne_true]
    exact hconsumed.setLink hk (hconsumed.links l k hk)
  | true =>
    rw [if_pos rfl]
    obtain ⟨t, hlatest, -⟩ := hallowed.mp (Bool.and_eq_true_iff.mp hsent).1
    have hrequested : .requested k.client k.server uuid t ∈
        Entry.consumed l k.client k.server uuid s.now allowed :: s.log :=
      List.mem_cons_of_mem _ (latestRequest_mem hlatest)
    have hresponded : Safe honest { s with
        pending := Function.update s.pending k.client table
        log := .responded l k.client k.server uuid s.now ::
          .consumed l k.client k.server uuid s.now allowed :: s.log } := by
      refine hconsumed.entry (Nat.le_refl _) rfl (fun _ _ _ _ heq => (by cases heq)) (fun _ _ _ _ _ heq => ?_)
        (hconsumed.spent_cons fun _ _ _ _ _ heq => (by cases heq)) trivial
      cases heq
      exact ⟨t, h.times _ (latestRequest_mem hlatest), hrequested⟩
    obtain ⟨hmyId, hcarried⟩ := hresponded.links l k hk
    refine hresponded.setLink hk ⟨hmyId, fun msg hmsg => ?_⟩
    rcases List.mem_append.mp hmsg with hmsg | hmsg
    · exact hcarried msg hmsg
    · obtain rfl := List.mem_singleton.mp hmsg
      obtain ⟨hoccurs, hmeant⟩ := hresponded.requested _ _ uuid t (List.mem_cons_of_mem _ hrequested)
      refine ⟨fun _ _ _ heq => (by cases heq; rfl), fun uuid' huuid' => ?_,
        fun uuid' huuid' m id t' hmem hid => ?_⟩
      · cases huuid'
        exact hoccurs
      · cases huuid'
        obtain ⟨rfl, rfl, -⟩ := hmeant m id t' hmem hid
        exact ⟨rfl, rfl, rfl, s.now, List.mem_cons_self⟩

theorem act [DecidableEq υ] (h : s.Safe honest) (hkept : s.Kept) (hk : s.links[l]? = some k)
    {action : Action μ υ} (hunguessed : s.Unguessed (.session l action)) :
    (s.act honest l k action).Safe honest := by
  have hok := h.links l k hk
  cases action with
  | reconnect => exact h.setLink hk ⟨hok.1, fun _ hmsg => absurd hmsg List.not_mem_nil⟩
  | authorize => exact h.setLink hk hok
  | switchSides uuid sent =>
    dsimp only [Net.act]
    split
    · rename_i hclient
      exact h.switch hk hclient hunguessed.1 hunguessed.2 sent
    · exact h
  | handleHash reply =>
    dsimp only [Net.act]
    split
    · split
      · exact h.consume hkept hk _ reply
      · exact h
    · exact h
  | deliver =>
    dsimp only [Net.act]
    split
    · exact h
    · exact h.deliver hkept hk
  | sendSwitchBack => exact h.setLink hk hok
  | receiveSwitchBack =>
    dsimp only [Net.act]
    split
    · exact h.receiveSwitchBack hk
    · exact h
  | claim myId =>
    dsimp only [Net.act]
    split
    · exact h
    · rename_i hclient
      exact h.setLink hk ⟨fun hhonest => absurd hhonest hclient, hok.2⟩
  | inject msg =>
    dsimp only [Net.act]
    split
    · exact h
    · rename_i hclient
      exact h.inject hk hclient hunguessed

theorem step [DecidableEq υ] (h : s.Safe honest) (hkept : s.Kept) {e : Event μ υ} (hunguessed : s.Unguessed e) :
    (s.step honest e).Safe honest := by
  cases e with
  | tick millis =>
    have htimes : ∀ e ∈ s.log, e.time ≤ s.now + millis := fun e he => Nat.le_add_right_of_le (h.times e he)
    exact ⟨htimes, h.distinct, h.owner, h.links, h.known, h.requested, h.responded, h.spent, h.authentic⟩
  | connect client server switchUuid =>
    refine ⟨h.times, h.distinct, h.owner, fun l k hk => ?_, h.known, h.requested, h.responded, h.spent,
      h.authentic⟩
    rcases Nat.lt_or_ge l s.links.length with hlt | hge
    · exact h.links l k ((List.getElem?_append_left hlt).symm.trans hk)
    · have hmem := List.mem_of_getElem? ((List.getElem?_append_right hge).symm.trans hk)
      obtain rfl := List.mem_singleton.mp hmem
      exact ⟨fun _ => rfl, fun _ hmsg => absurd hmsg List.not_mem_nil⟩
  | session l action =>
    dsimp only [Net.step]
    split
    · rename_i k hk
      exact h.act hkept hk hunguessed
    · exact h

end Safe

theorem Kept.start [DecidableEq μ] : ({} : Net μ υ).Kept where
  sides _ := ExpiringTable.holds_nil
  pending _ := ExpiringTable.holds_nil
  sessions _ _ hk := by cases hk
  bound _ he := absurd he List.not_mem_nil
  exact := trivial

end Net

section

variable {μ υ : Type} [DecidableEq μ] [DecidableEq υ]

/-- In every run, whatever the machines that are not honest do: who is let in, which uuid is used and when a
session switches back. -/
theorem switch_sides_exact (honest : μ → Bool) (events : List (Event μ υ)) :
    Throughout (Net.step honest) (fun s => Always Exact s.log) {} events :=
  History.throughout_imp (fun _ h => h.exact)
    (History.throughout_of_step (fun _ e h => h.step honest e) Net.Kept.start events)

/-- If nobody guesses a uuid, who is let in as an honest machine is that machine. -/
theorem switch_sides_authentic {honest : μ → Bool} {events : List (Event μ υ)}
    (h : Guarded (Net.step honest) Net.Unguessed {} events) :
    Throughout (Net.step honest) (fun s => Always (Authentic honest) s.log) {} events := by
  have hboth := History.throughout_of_guarded
    (fun (s : Net μ υ) e (hs : s.Kept ∧ s.Safe honest) he => ⟨hs.1.step honest e, hs.2.step hs.1 he⟩)
    ⟨Net.Kept.start, Net.Safe.start⟩ h
  exact History.throughout_imp (fun _ hs => hs.2.authentic) hboth

/-- Machine 0 switches sides with machine 1; machine 2, which is not honest, has sent machine 1 a request in the
name of machine 0 before, and presents that uuid to machine 0. -/
def impostor : List (Event Nat Nat) :=
  [.connect 0 1 none, .session 0 .authorize, .connect 2 1 none, .session 1 .authorize, .session 1 (.claim 0),
   .session 1 (.inject (.switchSidesRequest (some 7))), .session 1 .deliver, .session 0 (.switchSides 5 true),
   .connect 2 0 none, .session 2 (.inject (.switchSidesResponse (some 7) 2)), .session 2 .deliver,
   .session 0 .deliver, .connect 1 0 (some 5), .tick 9000, .session 3 (.handleHash true), .session 3 .deliver,
   .session 3 .sendSwitchBack, .session 3 .receiveSwitchBack]

theorem switch_sides_authentic_impostor :
    (run (Net.step (· ≠ 2)) {} impostor).log.take 2 = [.switchedBack 3, .answered 1 0 1 (some 5) 9000 true] ∧
      Throughout (Net.step (· ≠ 2)) (fun s => Always (Authentic (· ≠ 2)) s.log) {} impostor :=
  ⟨by decide, switch_sides_authentic (by decide)⟩

end

end RustDesk.SwitchSides
