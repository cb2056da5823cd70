import RustDesk.AddrMangle
import RustDesk.History

/-!
# Duplicate requests of a peer

The rendezvous server repeats a request, and a handler is spawned for each message. It reads which
address the last request had and when, then writes its own, each under the lock, and gives up when the
last one was of the same address and less than 100 ms ago. `PunchHole` and `FetchLocalAddr` share
one record, `RequestRelay` has another.

`accesses` are the handlers that have written, newest first, and `earlier` those of them that had
written when a handler read. Times are in milliseconds.
-/

namespace RustDesk.Rendezvous

open History (run Guarded Throughout)

variable {α : Type}

structure Record (α : Type) where
  addr : α
  time : Nat
  deriving DecidableEq, Repr

inductive Phase (α : Type)
  | spawned
  | read (last : Record α)
  | wrote (last : Record α)
  | done (goesOn : Bool)
  deriving DecidableEq, Repr

structure Handler (α : Type) where
  addr : α
  arrived : Nat
  phase : Phase α := .spawned
  earlier : List Nat := []
  deriving DecidableEq, Repr

namespace Phase

/-- The copy of the record, between the write and the comparison. -/
def compared : Phase α → Option (Record α)
  | .wrote last => some last
  | _ => none

/-- The copy of the record, between the read and the write. -/
def copied : Phase α → Option (Record α)
  | .read last => some last
  | _ => none

def written : Phase α → Bool
  | .wrote _ => true
  | .done _ => true
  | _ => false

end Phase

/-- Messages of the same address that arrived less than 100 ms apart. -/
def Handler.Near [DecidableEq α] (a b : Handler α) : Prop :=
  a.addr = b.addr ∧ a.arrived < b.arrived + 100 ∧ b.arrived < a.arrived + 100

instance [DecidableEq α] (a b : Handler α) : Decidable (a.Near b) :=
  inferInstanceAs (Decidable (_ ∧ _ ∧ _))

/-- A record with the handlers of the messages that use it. -/
structure Slot (α : Type) where
  record : Record α
  handlers : List (Handler α) := []
  accesses : List Nat := []
  deriving DecidableEq, Repr

inductive Access
  | read (i : Nat)
  | write (i now : Nat)
  | compare (i now : Nat)
  deriving DecidableEq, Repr

namespace Slot

variable [DecidableEq α] (s : Slot α)

def put (i : Nat) (h : Handler α) : Slot α := { s with handlers := s.handlers.set i h }

/-- `last.0 == addr && last.1.elapsed().as_millis() < 100` -/
def isDuplicate (last : Record α) (addr : α) (now : Nat) : Bool :=
  decide (last.addr = addr) && decide (now - last.time < 100)

def spawn (addr : α) (now : Nat) : Slot α := { s with handlers := s.handlers ++ [{ addr, arrived := now }] }

/-- What the `i`-th handler does next. -/
def access : Access → Slot α
  | .read i =>
    match s.handlers[i]? with
    | some h =>
      match h.phase with
      | .spawned => s.put i { h with phase := .read s.record, earlier := s.accesses }
      | _ => s
    | none => s
  | .write i now =>
    match s.handlers[i]? with
    | some h =>
      match h.phase with
      | .read last =>
        { s.put i { h with phase := .wrote last } with
          record := ⟨h.addr, now⟩, accesses := i :: s.accesses }
      | _ => s
    | none => s
  | .compare i now =>
    match s.handlers[i]? with
    | some h =>
      match h.phase with
      | .wrote last => s.put i { h with phase := .done !(isDuplicate last h.addr now) }
      | _ => s
    | none => s

/-- Of messages with the same address that arrive within 100 ms, at most one is acted upon. -/
def AtMostOne : Prop :=
  ∀ (i j : Nat) (a b : Handler α), i ≠ j → s.handlers[i]? = some a → s.handlers[j]? = some b →
    a.Near b → ¬ (a.phase = .done true ∧ b.phase = .done true)

/-- A handler reads when no other is between its read and its write, and when the record was not
used for another address since a message like its own; and it compares less than 100 ms after what
it has read, when there was such a message. -/
def Undisturbed : Access → Prop
  | .read i =>
    (∀ g ∈ s.handlers, g.phase.copied = none) ∧
      ∀ h ∈ s.handlers[i]?, ∀ k ∈ s.accesses, ∀ g ∈ s.handlers[k]?, g.Near h →
        ∀ m ∈ s.accesses.takeWhile (· ≠ k), ∀ f ∈ s.handlers[m]?, f.addr = h.addr
  | .write _ _ => True
  | .compare i now =>
    ∀ h ∈ s.handlers[i]?, ∀ last ∈ h.phase.compared, ∀ k ∈ h.earlier, ∀ g ∈ s.handlers[k]?, g.Near h →
      now < last.time + 100

instance : (a : Access) → Decidable (s.Undisturbed a)
  | .read _ => inferInstanceAs (Decidable (_ ∧ _))
  | .write _ _ => .isTrue trivial
  | .compare i now =>
    inferInstanceAs (Decidable (∀ h ∈ s.handlers[i]?, ∀ last ∈ h.phase.compared, ∀ k ∈ h.earlier,
      ∀ g ∈ s.handlers[k]?, g.Near h → now < last.time + 100))

end Slot

/-- The messages whose handlers keep out duplicates, with their mangled addresses. -/
inductive Request
  | punchHole (socketAddr : Bytes)
  | fetchLocalAddr (socketAddr : Bytes)
  | requestRelay (socketAddr : Bytes)
  deriving DecidableEq, Repr

/-- `LAST_MSG` and `LAST_RELAY_MSG` -/
structure Mediator where
  lastMsg : Slot SocketAddr
  lastRelayMsg : Slot SocketAddr
  deriving DecidableEq, Repr

namespace Mediator

/-- A message arrives, or a handler of one of the two kinds goes on. -/
inductive Event
  | receive (request : Request) (now : Nat)
  | msg (a : Access)
  | relayMsg (a : Access)
  deriving DecidableEq, Repr

/-- `handle_resp` spawns a handler. -/
def handleResp (m : Mediator) (now : Nat) : Request → Mediator
  | .punchHole socketAddr => { m with lastMsg := m.lastMsg.spawn (AddrMangle.decode socketAddr) now }
  | .fetchLocalAddr socketAddr => { m with lastMsg := m.lastMsg.spawn (AddrMangle.decode socketAddr) now }
  | .requestRelay socketAddr =>
    { m with lastRelayMsg := m.lastRelayMsg.spawn (AddrMangle.decode socketAddr) now }

def step (m : Mediator) : Event → Mediator
  | .receive request now => m.handleResp now request
  | .msg a => { m with lastMsg := m.lastMsg.access a }
  | .relayMsg a => { m with lastRelayMsg := m.lastRelayMsg.access a }

def Undisturbed (m : Mediator) : Event → Prop
  | .receive _ _ => True
  | .msg a => m.lastMsg.Undisturbed a
  | .relayMsg a => m.lastRelayMsg.Undisturbed a

instance (m : Mediator) : (e : Event) → Decidable (m.Undisturbed e)
  | .receive _ _ => .isTrue trivial
  | .msg a => inferInstanceAs (Decidable (m.lastMsg.Undisturbed a))
  | .relayMsg a => inferInstanceAs (Decidable (m.lastRelayMsg.Undisturbed a))

/-- Both records begin with an address that nobody has; `now` is when they are first used. -/
def start (now : Nat) : Mediator :=
  let unspecified : SocketAddr := .v4 #v[0, 0, 0, 0] 0
  ⟨{ record := ⟨unspecified, now⟩ }, { record := ⟨unspecified, now⟩ }⟩

end Mediator

/-! ### One record -/

namespace Slot

variable {s : Slot α} {i j now : Nat} {h g h' : Handler α}

theorem getElem?_put (hi : s.handlers[i]? = some g) :
    (s.put i h).handlers[j]? = if j = i then some h else s.handlers[j]? := by
  have hlt := (List.getElem?_eq_some_iff.mp hi).1
  by_cases hj : j = i
  · rw [if_pos hj, hj, put, List.getElem?_set_self hlt]
  · rw [if_neg hj, put, List.getElem?_set_ne fun h => hj h.symm]

theorem cases_put (hi : s.handlers[i]? = some h) (hj : (s.put i h').handlers[j]? = some g) :
    j = i ∧ g = h' ∨ j ≠ i ∧ s.handlers[j]? = some g := by
  rw [getElem?_put hi] at hj
  by_cases hji : j = i
  · rw [if_pos hji] at hj
    exact Or.inl ⟨hji, (Option.some.inj hj).symm⟩
  · rw [if_neg hji] at hj
    exact Or.inr ⟨hji, hj⟩

theorem getElem?_put_self (hi : s.handlers[i]? = some h) : (s.put i h').handlers[i]? = some h' := by
  rw [getElem?_put hi, if_pos rfl]

theorem getElem?_put_ne (hi : s.handlers[i]? = some h) (hji : j ≠ i) :
    (s.put i h').handlers[j]? = s.handlers[j]? := by
  rw [getElem?_put hi, if_neg hji]

theorem cases_spawn {addr : α} (hj : (s.spawn addr now).handlers[j]? = some g) :
    s.handlers[j]? = some g ∨ g = { addr, arrived := now } := by
  rw [spawn] at hj
  by_cases hlt : j < s.handlers.length
  · rw [List.getElem?_append_left hlt] at hj
    exact Or.inl hj
  · rw [List.getElem?_append_right (Nat.not_lt.mp hlt)] at hj
    exact Or.inr (List.mem_singleton.mp (List.mem_of_getElem? hj))

variable [DecidableEq α]

/-- What an access can do, apart from nothing. -/
inductive Does (s : Slot α) : Access → Slot α → Prop
  | nothing (a : Access) : Does s a s
  | reads (i : Nat) (h : Handler α) (hi : s.handlers[i]? = some h) (hphase : h.phase = .spawned) :
    Does s (.read i) (s.put i { h with phase := .read s.record, earlier := s.accesses })
  | writes (i now : Nat) (h : Handler α) (last : Record α) (hi : s.handlers[i]? = some h)
      (hphase : h.phase = .read last) :
    Does s (.write i now)
      { s.put i { h with phase := .wrote last } with
        record := ⟨h.addr, now⟩, accesses := i :: s.accesses }
  | compares (i now : Nat) (h : Handler α) (last : Record α) (hi : s.handlers[i]? = some h)
      (hphase : h.phase = .wrote last) :
    Does s (.compare i now) (s.put i { h with phase := .done !(isDuplicate last h.addr now) })

theorem does_access (s : Slot α) (a : Access) : s.Does a (s.access a) := by
  cases a with
  | read i =>
    simp only [access]
    split
    · rename_i h hi
      split
      · rename_i hphase
        exact .reads i h hi hphase
      · exact .nothing _
    · exact .nothing _
  | write i now =>
    simp only [access]
    split
    · rename_i h hi
      split
      · rename_i last hphase
        exact .writes i now h last hi hphase
      · exact .nothing _
    · exact .nothing _
  | compare i now =>
    simp only [access]
    split
    · rename_i h hi
      split
      · rename_i last hphase
        exact .compares i now h last hi hphase
      · exact .nothing _
    · exact .nothing _

/-- The messages of these two handlers are duplicates. -/
def NearAt (s : Slot α) (i j : Nat) : Prop :=
  ∃ g h, s.handlers[i]? = some g ∧ s.handlers[j]? = some h ∧ g.Near h

/-- Accesses follow each other handler by handler, so of two handlers that have written one came
after the other. The one that came after duplicates knows it until it compares. -/
structure Serial (s : Slot α) : Prop where
  newest : ∀ k older, s.accesses = k :: older → ∀ h, s.handlers[k]? = some h → h.addr = s.record.addr
  known : ∀ i ∈ s.accesses, ∃ h, s.handlers[i]? = some h ∧ h.phase.written = true
  accessed : ∀ (i : Nat) (h : Handler α), s.handlers[i]? = some h → h.phase.written = true → i ∈ s.accesses
  earlier : ∀ (j : Nat) (h : Handler α), s.handlers[j]? = some h → h.earlier ⊆ s.accesses
  alone : ∀ (i j : Nat) (g h : Handler α), s.handlers[i]? = some g → s.handlers[j]? = some h → g.phase.copied ≠ none →
    h.phase.copied ≠ none → i = j
  current : ∀ (j : Nat) (h : Handler α), s.handlers[j]? = some h → h.phase.copied ≠ none → h.earlier = s.accesses
  ordered : ∀ (i j : Nat) (g h : Handler α), s.handlers[i]? = some g → s.handlers[j]? = some h → i ≠ j → i ∈ s.accesses →
    j ∈ s.accesses → i ∈ h.earlier ∨ j ∈ g.earlier
  seen : ∀ (j : Nat) (h : Handler α) (last : Record α), s.handlers[j]? = some h → h.phase = .read last ∨ h.phase = .wrote last →
    ∀ i ∈ h.earlier, s.NearAt i j → last.addr = h.addr
  skipped : ∀ (j : Nat) (h : Handler α), s.handlers[j]? = some h → h.phase = .done true → ∀ i ∈ h.earlier, ¬ s.NearAt i j

theorem Serial.atMostOne (hs : s.Serial) : s.AtMostOne := by
  intro i j a b hij hi hj hnear hboth
  have hni : s.NearAt i j := ⟨a, b, hi, hj, hnear⟩
  have hnj : s.NearAt j i := ⟨b, a, hj, hi, hnear.1.symm, hnear.2.2, hnear.2.1⟩
  have hai : i ∈ s.accesses := hs.accessed i a hi (by rw [hboth.1]; rfl)
  have haj : j ∈ s.accesses := hs.accessed j b hj (by rw [hboth.2]; rfl)
  rcases hs.ordered i j a b hi hj hij hai haj with h | h
  · exact hs.skipped j b hj hboth.2 i h hni
  · exact hs.skipped i a hi hboth.1 j h hnj

/-- The message of a handler does not change. -/
theorem nearAt_put (hi : s.handlers[i]? = some h) {k : Nat} (hnear : (s.put i h').NearAt j k)
    (haddr : h'.addr = h.addr) (harr : h'.arrived = h.arrived) : s.NearAt j k := by
  obtain ⟨g, f, hg, hf, hgf⟩ := hnear
  have hback : ∀ {m : Nat} {e : Handler α}, (s.put i h').handlers[m]? = some e →
      ∃ d, s.handlers[m]? = some d ∧ d.addr = e.addr ∧ d.arrived = e.arrived := by
    intro m e hm
    rcases cases_put hi hm with ⟨rfl, rfl⟩ | ⟨-, hm⟩
    · exact ⟨h, hi, haddr.symm, harr.symm⟩
    · exact ⟨e, hm, rfl, rfl⟩
  obtain ⟨g', hg', hga, hgt⟩ := hback hg
  obtain ⟨f', hf', hfa, hft⟩ := hback hf
  refine ⟨g', f', hg', hf', ?_⟩
  rw [Handler.Near, hga, hgt, hfa, hft]
  exact hgf

/-- What is written since a duplicate was of its address, so the record still is. -/
theorem Serial.record_addr (hs : s.Serial) (hi : s.handlers[i]? = some h)
    (hok : s.Undisturbed (.read i)) {k : Nat} (hk : k ∈ s.accesses) (hnear : s.NearAt k i) :
    s.record.addr = h.addr := by
  obtain ⟨g, h₁, hg, hh₁, hgh⟩ := hnear
  rw [hi] at hh₁
  cases hh₁
  cases hacc : s.accesses with
  | nil =>
    rw [hacc] at hk
    exact absurd hk List.not_mem_nil
  | cons m older =>
    have hm : m ∈ s.accesses := hacc ▸ List.mem_cons_self
    obtain ⟨f, hf, -⟩ := hs.known m hm
    have hfaddr : f.addr = h.addr := by
      by_cases hmk : m = k
      · subst hmk
        rw [hg] at hf
        cases hf
        exact hgh.1
      · have hwhile : m ∈ s.accesses.takeWhile (· ≠ k) := by
          rw [hacc, List.takeWhile_cons_of_pos (by simpa using hmk)]
          exact List.mem_cons_self
        exact hok.2 h hi k hk g hg hgh m hwhile f hf
    rw [← hs.newest m older hacc f hf, hfaddr]

theorem Serial.notMem_accesses (hs : s.Serial) (hi : s.handlers[i]? = some h)
    (hphase : h.phase.written = false) : i ∉ s.accesses := by
  intro hmem
  obtain ⟨g, hg, hwritten⟩ := hs.known i hmem
  rw [hi] at hg
  cases hg
  rw [hphase] at hwritten
  cases hwritten

theorem Serial.reads (hs : s.Serial) (hi : s.handlers[i]? = some h) (hphase : h.phase = .spawned)
    (hok : s.Undisturbed (.read i)) :
    (s.put i { h with phase := .read s.record, earlier := s.accesses }).Serial := by
  have hnot : i ∉ s.accesses := hs.notMem_accesses hi (by rw [hphase]; rfl)
  have hnone : ∀ {j : Nat} {g : Handler α}, s.handlers[j]? = some g → g.phase.copied = none := fun hj =>
    hok.1 _ (List.mem_of_getElem? hj)
  have hne : ∀ {j : Nat}, j ∈ s.accesses → j ≠ i := fun hj h => hnot (h ▸ hj)
  constructor
  · intro k older hacc g hg
    rw [getElem?_put_ne hi (hne (hacc ▸ List.mem_cons_self))] at hg
    exact hs.newest k older hacc g hg
  · intro k hk
    rw [getElem?_put_ne hi (hne hk)]
    exact hs.known k hk
  · intro j g hj hwritten
    rcases cases_put hi hj with ⟨-, rfl⟩ | ⟨-, hj⟩
    · cases hwritten
    · exact hs.accessed j g hj hwritten
  · intro j g hj
    rcases cases_put hi hj with ⟨-, rfl⟩ | ⟨-, hj⟩
    · exact List.Subset.refl _
    · exact hs.earlier j g hj
  · intro j k g f hj hk hcopied hcopied'
    rcases cases_put hi hj with ⟨hji, -⟩ | ⟨-, hj⟩
    · rcases cases_put hi hk with ⟨hki, -⟩ | ⟨-, hk⟩
      · rw [hji, hki]
      · exact absurd (hnone hk) hcopied'
    · exact absurd (hnone hj) hcopied
  · intro j g hj hcopied
    rcases cases_put hi hj with ⟨-, rfl⟩ | ⟨-, hj⟩
    · rfl
    · exact absurd (hnone hj) hcopied
  · intro j k g f hj hk hjk hja hka
    rw [getElem?_put_ne hi (hne hja)] at hj
    rw [getElem?_put_ne hi (hne hka)] at hk
    exact hs.ordered j k g f hj hk hjk hja hka
  · intro j g last hj hlast k hk hnear
    have hnear' := nearAt_put hi hnear rfl rfl
    rcases cases_put hi hj with ⟨hji, rfl⟩ | ⟨-, hj⟩
    · subst hji
      rcases hlast with hlast | hlast
      · cases hlast
        have haddr : s.record.addr = h.addr := hs.record_addr hi hok hk hnear'
        exact haddr
      · cases hlast
    · exact hs.seen j g last hj hlast k hk hnear'
  · intro j g hj hdone k hk hnear
    rcases cases_put hi hj with ⟨-, rfl⟩ | ⟨-, hj⟩
    · cases hdone
    · exact hs.skipped j g hj hdone k hk (nearAt_put hi hnear rfl rfl)

/-- A handler that holds no copy any more leaves at most the one that does. -/
theorem Serial.alone_put (hs : s.Serial) (hi : s.handlers[i]? = some h) (hnone : h'.phase.copied = none) (j k : Nat)
    (g f : Handler α) (hj : (s.put i h').handlers[j]? = some g) (hk : (s.put i h').handlers[k]? = some f)
    (hg : g.phase.copied ≠ none) (hf : f.phase.copied ≠ none) : j = k := by
  rcases cases_put hi hj with ⟨-, rfl⟩ | ⟨-, hj⟩
  · exact absurd hnone hg
  · rcases cases_put hi hk with ⟨-, rfl⟩ | ⟨-, hk⟩
    · exact absurd hnone hf
    · exact hs.alone j k g f hj hk hg hf

/-- A handler that came after a duplicate and compares in time finds it. -/
theorem Serial.isDuplicate_of_near {last : Record α} (hs : s.Serial) (hi : s.handlers[i]? = some h)
    (hphase : h.phase = .wrote last) (hok : s.Undisturbed (.compare i now)) {k : Nat} (hk : k ∈ h.earlier)
    (hnear : s.NearAt k i) : isDuplicate last h.addr now = true := by
  have haddr : last.addr = h.addr := hs.seen i h last hi (Or.inr hphase) k hk hnear
  obtain ⟨f, h₁, hf, hh₁, hfh⟩ := hnear
  rw [hi] at hh₁
  cases hh₁
  have htime : now < last.time + 100 := hok h hi last (by rw [hphase]; rfl) k hk f hf hfh
  rw [isDuplicate, Bool.and_eq_true, decide_eq_true_eq, decide_eq_true_eq]
  exact ⟨haddr, by omega⟩

theorem Serial.writes {last : Record α} (hs : s.Serial) (hi : s.handlers[i]? = some h)
    (hphase : h.phase = .read last) :
    ({ s.put i { h with phase := .wrote last } with
      record := ⟨h.addr, now⟩, accesses := i :: s.accesses } : Slot α).Serial := by
  have hcopied : h.phase.copied ≠ none := by
    rw [hphase]
    exact Option.some_ne_none _
  have hearlier : h.earlier = s.accesses := hs.current i h hi hcopied
  have hnear : ∀ {j k : Nat}, ({ s.put i { h with phase := .wrote last } with
      record := ⟨h.addr, now⟩, accesses := i :: s.accesses } : Slot α).NearAt j k → s.NearAt j k :=
    fun hjk => nearAt_put hi hjk rfl rfl
  constructor
  · intro k older hacc g hg
    cases hacc
    have hg' := (getElem?_put_self hi).symm.trans hg
    cases hg'
    rfl
  · intro k hk
    by_cases hki : k = i
    · subst hki
      exact ⟨_, getElem?_put_self hi, rfl⟩
    · obtain ⟨g, hg, hwritten⟩ := hs.known k (List.mem_of_ne_of_mem hki hk)
      exact ⟨g, (getElem?_put_ne hi hki).trans hg, hwritten⟩
  · intro j g hj hwritten
    rcases cases_put hi hj with ⟨hji, -⟩ | ⟨-, hj⟩
    · rw [hji]
      exact List.mem_cons_self
    · exact List.mem_cons_of_mem i (hs.accessed j g hj hwritten)
  · intro j g hj
    rcases cases_put hi hj with ⟨-, rfl⟩ | ⟨-, hj⟩
    · exact List.subset_cons_of_subset i (hs.earlier i h hi)
    · exact List.subset_cons_of_subset i (hs.earlier j g hj)
  · exact hs.alone_put hi rfl
  · intro j g hj hg
    rcases cases_put hi hj with ⟨-, rfl⟩ | ⟨hji, hj⟩
    · exact absurd rfl hg
    · exact absurd (hs.alone j i g h hj hi hg hcopied) hji
  · intro j k g f hj hk hjk hja hka
    rcases cases_put hi hj with ⟨hji, rfl⟩ | ⟨hji, hj⟩
    · right
      have hki : k ≠ i := fun h => hjk (hji.trans h.symm)
      exact hearlier ▸ List.mem_of_ne_of_mem hki hka
    · rcases cases_put hi hk with ⟨hki, rfl⟩ | ⟨hki, hk⟩
      · left
        exact hearlier ▸ List.mem_of_ne_of_mem hji hja
      · exact hs.ordered j k g f hj hk hjk (List.mem_of_ne_of_mem hji hja) (List.mem_of_ne_of_mem hki hka)
  · intro j g last' hj hlast k hk hjk
    rcases cases_put hi hj with ⟨hji, rfl⟩ | ⟨-, hj⟩
    · subst hji
      rcases hlast with hlast | hlast
      · cases hlast
      · cases hlast
        exact hs.seen j h last hi (Or.inl hphase) k hk (hnear hjk)
    · exact hs.seen j g last' hj hlast k hk (hnear hjk)
  · intro j g hj hdone k hk hjk
    rcases cases_put hi hj with ⟨-, rfl⟩ | ⟨-, hj⟩
    · cases hdone
    · exact hs.skipped j g hj hdone k hk (hnear hjk)

theorem Serial.compares {last : Record α} (hs : s.Serial) (hi : s.handlers[i]? = some h)
    (hphase : h.phase = .wrote last) (hok : s.Undisturbed (.compare i now)) :
    (s.put i { h with phase := .done !(isDuplicate last h.addr now) }).Serial := by
  have hwritten : h.phase.written = true := by rw [hphase]; rfl
  constructor
  · intro k older hacc g hg
    rcases cases_put hi hg with ⟨hki, rfl⟩ | ⟨-, hg⟩
    · exact hs.newest k older hacc h (hki ▸ hi)
    · exact hs.newest k older hacc g hg
  · intro k hk
    by_cases hki : k = i
    · subst hki
      exact ⟨_, getElem?_put_self hi, rfl⟩
    · rw [getElem?_put_ne hi hki]
      exact hs.known k hk
  · intro j g hj hg
    rcases cases_put hi hj with ⟨hji, -⟩ | ⟨-, hj⟩
    · exact hji ▸ hs.accessed i h hi hwritten
    · exact hs.accessed j g hj hg
  · intro j g hj
    rcases cases_put hi hj with ⟨-, rfl⟩ | ⟨-, hj⟩
    · exact hs.earlier i h hi
    · exact hs.earlier j g hj
  · exact hs.alone_put hi rfl
  · intro j g hj hg
    rcases cases_put hi hj with ⟨-, rfl⟩ | ⟨-, hj⟩
    · exact absurd rfl hg
    · exact hs.current j g hj hg
  · intro j k g f hj hk hjk hja hka
    rcases cases_put hi hj with ⟨hji, rfl⟩ | ⟨-, hj⟩
    · rcases cases_put hi hk with ⟨hki, -⟩ | ⟨-, hk⟩
      · exact absurd (hji.trans hki.symm) hjk
      · exact hs.ordered j k h f (hji ▸ hi) hk hjk hja hka
    · rcases cases_put hi hk with ⟨hki, rfl⟩ | ⟨-, hk⟩
      · exact hs.ordered j k g h hj (hki ▸ hi) hjk hja hka
      · exact hs.ordered j k g f hj hk hjk hja hka
  · intro j g last' hj hlast k hk hjk
    rcases cases_put hi hj with ⟨-, rfl⟩ | ⟨-, hj⟩
    · rcases hlast with hlast | hlast <;> cases hlast
    · exact hs.seen j g last' hj hlast k hk (nearAt_put hi hjk rfl rfl)
  · intro j g hj hdone k hk hjk
    have hnear := nearAt_put hi hjk rfl rfl
    rcases cases_put hi hj with ⟨hji, rfl⟩ | ⟨-, hj⟩
    · subst hji
      have hdup := hs.isDuplicate_of_near hi hphase hok hk hnear
      rw [hdup] at hdone
      cases hdone
    · exact hs.skipped j g hj hdone k hk hnear

theorem Serial.access {a : Access} (hs : s.Serial) (hok : s.Undisturbed a) : (s.access a).Serial := by
  have hdoes := does_access s a
  generalize s.access a = s' at hdoes
  cases hdoes with
  | nothing => exact hs
  | reads i h hi hphase => exact hs.reads hi hphase hok
  | writes i now h last hi hphase => exact hs.writes hi hphase
  | compares i now h last hi hphase => exact hs.compares hi hphase hok

theorem Serial.handlers_spawn (hs : s.Serial) {addr : α} (hj : j ∈ s.accesses) :
    (s.spawn addr now).handlers[j]? = s.handlers[j]? := by
  obtain ⟨h, hh, -⟩ := hs.known j hj
  exact List.getElem?_append_left (List.getElem?_eq_some_iff.mp hh).1

/-- A new handler has done nothing yet, and the others are as they were. -/
theorem Serial.spawn (hs : s.Serial) (addr : α) (now : Nat) : (s.spawn addr now).Serial := by
  have hold : ∀ {j : Nat} {g : Handler α}, (s.spawn addr now).handlers[j]? = some g →
      g.phase ≠ .spawned → s.handlers[j]? = some g := by
    intro j g hj hphase
    rcases cases_spawn hj with hj | rfl
    · exact hj
    · exact absurd rfl hphase
  have hnear : ∀ {i j : Nat} {h : Handler α}, i ∈ s.accesses → s.handlers[j]? = some h →
      (s.spawn addr now).NearAt i j → s.NearAt i j := by
    intro i j h hi hj hij
    obtain ⟨g, h₁, hg, hh₁, hgh⟩ := hij
    rw [hs.handlers_spawn hi] at hg
    have hj' : (s.spawn addr now).handlers[j]? = some h :=
      (List.getElem?_append_left (List.getElem?_eq_some_iff.mp hj).1).trans hj
    rw [hj'] at hh₁
    cases hh₁
    exact ⟨g, h, hg, hj, hgh⟩
  constructor
  · intro k older hacc g hg
    have hk : k ∈ s.accesses := by
      change s.accesses = k :: older at hacc
      rw [hacc]
      exact List.mem_cons_self
    rw [hs.handlers_spawn hk] at hg
    exact hs.newest k older hacc g hg
  · intro k hk
    rw [hs.handlers_spawn hk]
    exact hs.known k hk
  · intro j g hj hwritten
    exact hs.accessed j g (hold hj fun h => by rw [h] at hwritten; cases hwritten) hwritten
  · intro j g hj
    rcases cases_spawn hj with hj | rfl
    · exact hs.earlier j g hj
    · exact List.nil_subset _
  · intro j k g f hj hk hg hf
    exact hs.alone j k g f (hold hj fun h => hg (by rw [h]; rfl)) (hold hk fun h => hf (by rw [h]; rfl)) hg hf
  · intro j g hj hg
    exact hs.current j g (hold hj fun h => hg (by rw [h]; rfl)) hg
  · intro j k g f hj hk hjk hja hka
    rw [hs.handlers_spawn hja] at hj
    rw [hs.handlers_spawn hka] at hk
    exact hs.ordered j k g f hj hk hjk hja hka
  · intro j g last hj hlast k hk hjk
    have hphase : g.phase ≠ .spawned := by
      intro h
      rw [h] at hlast
      rcases hlast with h | h <;> cases h
    have hj' := hold hj hphase
    exact hs.seen j g last hj' hlast k hk (hnear (hs.earlier j g hj' hk) hj' hjk)
  · intro j g hj hdone k hk hjk
    have hj' := hold hj fun h => by rw [h] at hdone; cases hdone
    exact hs.skipped j g hj' hdone k hk (hnear (hs.earlier j g hj' hk) hj' hjk)

theorem serial_new (record : Record α) : ({ record } : Slot α).Serial := by
  have hnone : ∀ {i : Nat} {h : Handler α}, ¬ ({ record } : Slot α).handlers[i]? = some h := by simp
  refine ⟨fun k older h => ?_, fun k hk => absurd hk List.not_mem_nil, fun i h hi => absurd hi hnone,
    fun j h hj => absurd hj hnone, fun i j g h hi => absurd hi hnone, fun j h hj => absurd hj hnone,
    fun i j g h hi => absurd hi hnone, fun j h last hj => absurd hj hnone, fun j h hj => absurd hj hnone⟩
  cases h

end Slot

/-! ### Both records -/

namespace Mediator

variable {m : Mediator} {e : Event}

structure Serial (m : Mediator) : Prop where
  lastMsg : m.lastMsg.Serial
  lastRelayMsg : m.lastRelayMsg.Serial

theorem Serial.step (hm : m.Serial) (hok : m.Undisturbed e) : (m.step e).Serial := by
  cases e with
  | receive request now =>
    cases request with
    | punchHole socketAddr => exact ⟨hm.lastMsg.spawn _ now, hm.lastRelayMsg⟩
    | fetchLocalAddr socketAddr => exact ⟨hm.lastMsg.spawn _ now, hm.lastRelayMsg⟩
    | requestRelay socketAddr => exact ⟨hm.lastMsg, hm.lastRelayMsg.spawn _ now⟩
  | msg a => exact ⟨hm.lastMsg.access hok, hm.lastRelayMsg⟩
  | relayMsg a => exact ⟨hm.lastMsg, hm.lastRelayMsg.access hok⟩

def AtMostOne (m : Mediator) : Prop := m.lastMsg.AtMostOne ∧ m.lastRelayMsg.AtMostOne

/-- While handlers use a record one after the other, duplicates without another peer's request between
them and soon enough after each other, at most one of them is acted upon. -/
theorem atMostOne_of_undisturbed (now : Nat) (es : List Event)
    (hok : Guarded step Undisturbed (start now) es) : Throughout step AtMostOne (start now) es := by
  have hstart : (start now).Serial := ⟨Slot.serial_new _, Slot.serial_new _⟩
  have hserial : Throughout step Serial (start now) es :=
    History.throughout_of_guarded (fun m e hm hok => hm.step hok) hstart hok
  exact History.throughout_imp (fun m hm => ⟨hm.lastMsg.atMostOne, hm.lastRelayMsg.atMostOne⟩) hserial

/-- All steps of the `i`-th handler, one after the other. -/
def handled (i now : Nat) : List Event := [.msg (.read i), .msg (.write i now), .msg (.compare i now)]

def peerAddr : Bytes := AddrMangle.encode 0 (.v4 #v[10, 0, 0, 1] 7000)

def otherAddr : Bytes := AddrMangle.encode 0 (.v4 #v[10, 0, 0, 2] 7000)

theorem atMostOne_repeated :
    Throughout step AtMostOne (start 0)
      ([.receive (.punchHole peerAddr) 1000] ++ handled 0 1000 ++ [.receive (.punchHole peerAddr) 1020] ++
        handled 1 1020) :=
  atMostOne_of_undisturbed 0 _ (by decide +kernel)

/-- Two handlers read before either of them writes. -/
def atOnce : List Event :=
  [.receive (.punchHole peerAddr) 1000, .receive (.punchHole peerAddr) 1001, .msg (.read 0), .msg (.read 1),
    .msg (.write 0 1001), .msg (.write 1 1001), .msg (.compare 0 1001), .msg (.compare 1 1001)]

/-- The request of another peer comes between a request and its repetition. -/
def between : List Event :=
  [.receive (.punchHole peerAddr) 1000] ++ handled 0 1000 ++ [.receive (.fetchLocalAddr otherAddr) 1010] ++
    handled 1 1010 ++ [.receive (.punchHole peerAddr) 1020] ++ handled 2 1020

/-- Both handlers go on, although their messages are duplicates. -/
def bothGoOn (s : Slot SocketAddr) (i j : Nat) : Bool :=
  match s.handlers[i]?, s.handlers[j]? with
  | some a, some b => decide (a.Near b) && decide (a.phase = .done true) && decide (b.phase = .done true)
  | _, _ => false

theorem not_atMostOne {i j : Nat} (hij : i ≠ j) (h : bothGoOn m.lastMsg i j = true) : ¬ m.AtMostOne := by
  intro hone
  rw [bothGoOn] at h
  split at h
  · rename_i a b ha hb
    rw [Bool.and_eq_true, Bool.and_eq_true, decide_eq_true_eq, decide_eq_true_eq, decide_eq_true_eq] at h
    exact hone.1 i j a b hij ha hb h.1.1 ⟨h.1.2, h.2⟩
  · cases h

theorem both_acted_upon :
    ¬ (run step (start 0) atOnce).AtMostOne ∧ ¬ (run step (start 0) between).AtMostOne := by
  have hatOnce : bothGoOn (run step (start 0) atOnce).lastMsg 0 1 = true := by decide +kernel
  have hbetween : bothGoOn (run step (start 0) between).lastMsg 0 2 = true := by decide +kernel
  exact ⟨not_atMostOne (by decide) hatOnce, not_atMostOne (by decide) hbetween⟩

end Mediator

end RustDesk.Rendezvous
