import RustDesk.Detiling
import RustDesk.History
import Mathlib.Data.List.Nodup
import Mathlib.Data.List.Perm.Basic

/-!
# The cache of mapped buffers

The decoder hands out frames by physical address and to map a buffer is slow, so the daemon
keeps up to eight mappings, by address; when all slots are taken a new mapping replaces the
one that has its turn. A frame has two buffers, which are looked up one after the other and
then read.

What `mmz_map` returns is an argument of each lookup. `calls` are the calls of `mmz_map` and
`mmz_unmap`, in their order.
-/

namespace RustDesk.Goke

structure Slot where
  phys : BitVec 32
  ptr : Nat
  deriving DecidableEq, Repr

inductive MmzCall
  | map (phys : BitVec 32) (ptr : Option Nat)
  | unmap (ptr : Nat)
  deriving DecidableEq, Repr

def mapped (calls : List MmzCall) : List Nat :=
  calls.foldl
    (fun live call =>
      match call with
      | .map _ (some p) => p :: live
      | .map _ none => live
      | .unmap p => live.erase p)
    []

def mapcache : Nat := 8

/-- `INT_MAX`, where `map_cache_next++` overflows. -/
def intMax : Nat := 2 ^ 31 - 1

/-- `slots` are the first `map_cache_n` of `map_cache`. Once `next` has overflowed the language
does not say what happens. -/
structure MapCache where
  slots : List Slot := []
  next : Nat := 0
  overflowed : Bool := false
  calls : List MmzCall := []
  deriving DecidableEq, Repr

namespace MapCache

variable (c : MapCache)

/-- The slot that the loop of `map_get` stops at. -/
def find (phys : BitVec 32) : Option Nat := c.slots.findIdx? fun s => decide (s.phys = phys)

def ptrAt (i : Nat) : Option Nat := c.slots[i]?.map (·.ptr)

def turn : Nat := c.next % mapcache

def call (k : MmzCall) : MapCache := { c with calls := c.calls ++ [k] }

/-- A new mapping takes the place of the one that has its turn. -/
def replace (phys : BitVec 32) (p : Nat) : MapCache :=
  { c with
    slots := c.slots.set c.turn ⟨phys, p⟩
    next := c.next + 1
    calls := c.calls ++ ((c.ptrAt c.turn).map MmzCall.unmap).toList }

/-- `map_get`; `answer` is what `mmz_map` returns if it is called. -/
def mapGet (phys : BitVec 32) (answer : Option Nat) : Option Nat × MapCache :=
  match c.find phys with
  | some i => (c.ptrAt i, c)
  | none =>
    let c := c.call (.map phys answer)
    match answer with
    | none => (none, c)
    | some p =>
      if c.slots.length < mapcache then (some p, { c with slots := c.slots ++ [⟨phys, p⟩] })
      else if c.next = intMax then (some p, { c with overflowed := true })
      else (some p, c.replace phys p)

/-- `map_cache_clear` -/
def clear : MapCache :=
  { c with slots := [], next := 0, calls := c.calls ++ c.slots.map fun s => .unmap s.ptr }

end MapCache

/-- `reading` are the planes that `nv21_from_frame` reads from, in the frame that is handled;
`stopped` is `d->stop`. -/
structure Daemon where
  cache : MapCache := {}
  scratch : Scratch
  stopped : Bool := false
  reading : Option (Nat × Nat) := none

namespace Daemon

variable (d : Daemon)

/-- `nv21_from_frame`; `memory` is what is found through a pointer. -/
def nv21FromFrame (f : Frame) (first second : Option Nat) (memory : Nat → Plane)
    (stack : Nat × Nat → Nat) : Option Picture × Daemon :=
  if ¬ f.Accepted then (none, { d with reading := none })
  else
    let (y, c) := d.cache.mapGet (f 2) first
    let (vu, c) := c.mapGet (f 7) second
    match y, vu with
    | some y, some vu =>
      let scratch := f.detile (memory y) (memory vu) stack d.scratch
      (some (f.picture scratch), { d with cache := c, scratch, reading := some (y, vu) })
    | _, _ => (none, { d with cache := c, reading := none })

/-- The frames that `drain_loop` does not give up on. -/
def supported (f : Frame) : Bool := decide (f.w ≤ 2880 ∧ f.h ≤ 1800 ∧ f 16 &&& 0x20 = 0)

/-- A frame arrives, and the picture can be sent or not; or the session ends, and the next one
begins with other buffers. -/
inductive Event
  | frame (f : Frame) (first second : Option Nat) (memory : Nat → Plane) (stack : Nat × Nat → Nat)
      (sent : Bool)
  | sessionEnd (scratch : Scratch)

/-- One turn of `drain_loop`, or the end of `session`. -/
def step : Event → Daemon
  | .frame f first second memory stack sent =>
    if d.stopped then { d with reading := none }
    else if !supported f then { d with stopped := true, reading := none }
    else
      match d.nv21FromFrame f first second memory stack with
      | (some _, d) => { d with stopped := !sent }
      | (none, d) => d
  | .sessionEnd scratch => { cache := d.cache.clear, scratch }

end Daemon

/-! ### What is mapped -/

@[simp] theorem mapped_map_some (calls : List MmzCall) (phys : BitVec 32) (p : Nat) :
    mapped (calls ++ [MmzCall.map phys (some p)]) = p :: mapped calls := by
  simp only [mapped, List.foldl_append, List.foldl_cons, List.foldl_nil]

@[simp] theorem mapped_map_none (calls : List MmzCall) (phys : BitVec 32) :
    mapped (calls ++ [MmzCall.map phys none]) = mapped calls := by
  simp only [mapped, List.foldl_append, List.foldl_cons, List.foldl_nil]

@[simp] theorem mapped_unmap (calls : List MmzCall) (p : Nat) :
    mapped (calls ++ [MmzCall.unmap p]) = (mapped calls).erase p := by
  simp only [mapped, List.foldl_append, List.foldl_cons, List.foldl_nil]

theorem mapped_unmap_all {calls : List MmzCall} {ps : List Nat} (h : (mapped calls).Perm ps) :
    mapped (calls ++ ps.map .unmap) = [] := by
  induction ps generalizing calls with
  | nil => simpa using h
  | cons p ps ih =>
    have hrest : (mapped (calls ++ [MmzCall.unmap p])).Perm ps := by
      simpa using h.erase p
    simpa using ih hrest

namespace MapCache

variable {c : MapCache} {phys : BitVec 32} {answer : Option Nat} {y i : Nat}

def ptrs (c : MapCache) : List Nat := c.slots.map (·.ptr)

theorem ptrAt_eq : c.ptrAt i = c.ptrs[i]? := (List.getElem?_map).symm

theorem length_ptrs : c.ptrs.length = c.slots.length := List.length_map _

/-- What is mapped is what the slots hold, each pointer once. The turn has not begun to move
before all slots are taken. -/
structure Owns (c : MapCache) : Prop where
  perm : (mapped c.calls).Perm c.ptrs
  nodup : c.ptrs.Nodup
  size : c.slots.length ≤ mapcache
  first : c.slots.length < mapcache → c.next = 0
  defined : c.overflowed = false

theorem Owns.mem_mapped (hc : Owns c) (h : c.ptrAt i = some y) : y ∈ mapped c.calls := by
  rw [ptrAt_eq] at h
  exact hc.perm.mem_iff.mpr (List.mem_of_getElem? h)

theorem owns_empty : Owns {} where
  perm := List.Perm.nil
  nodup := List.nodup_nil
  size := by decide
  first _ := rfl
  defined := rfl

theorem Owns.clear (hc : Owns c) : Owns c.clear where
  perm := by
    have hall := mapped_unmap_all hc.perm
    rw [ptrs, List.map_map] at hall
    exact List.Perm.of_eq hall
  nodup := List.nodup_nil
  size := Nat.zero_le _
  first _ := rfl
  defined := hc.defined

def Replaces (c : MapCache) (phys : BitVec 32) (answer : Option Nat) : Prop :=
  c.slots.length = mapcache ∧ c.find phys = none ∧ answer.isSome

instance (c : MapCache) (phys : BitVec 32) (answer : Option Nat) : Decidable (c.Replaces phys answer) :=
  inferInstanceAs (Decidable (_ ∧ _))

/-! ### The four ways of a lookup -/

theorem mapGet_found (h : c.find phys = some i) : c.mapGet phys answer = (c.ptrAt i, c) := by
  rw [mapGet, h]

theorem mapGet_failed (h : c.find phys = none) :
    c.mapGet phys none = (none, c.call (.map phys none)) := by
  rw [mapGet, h]

theorem mapGet_added (h : c.find phys = none) {p : Nat} (hroom : c.slots.length < mapcache) :
    c.mapGet phys (some p) =
      (some p, { c.call (.map phys (some p)) with slots := c.slots ++ [⟨phys, p⟩] }) := by
  rw [mapGet, h]
  exact if_pos hroom

theorem mapGet_replaced (h : c.find phys = none) {p : Nat} (hfull : c.slots.length = mapcache)
    (hnext : c.next < intMax) :
    c.mapGet phys (some p) = (some p, (c.call (.map phys (some p))).replace phys p) := by
  have hroom : ¬ c.slots.length < mapcache := by omega
  have hlast : ¬ c.next = intMax := by omega
  rw [mapGet, h]
  exact (if_neg hroom).trans (if_neg hlast)

theorem turn_lt (hfull : c.slots.length = mapcache) : c.turn < c.slots.length := by
  rw [hfull]
  exact Nat.mod_lt _ (by decide)

theorem exists_ptrAt_turn (hfull : c.slots.length = mapcache) : ∃ y, c.ptrAt c.turn = some y := by
  have hlt : c.turn < c.ptrs.length := length_ptrs ▸ turn_lt hfull
  exact ⟨c.ptrs[c.turn], ptrAt_eq.trans (List.getElem?_eq_getElem hlt)⟩

theorem mapped_replace {p : Nat} (hy : c.ptrAt c.turn = some y) :
    mapped ((c.call (.map phys (some p))).replace phys p).calls = (p :: mapped c.calls).erase y := by
  have hcalls : ((c.call (.map phys (some p))).replace phys p).calls =
      c.calls ++ [MmzCall.map phys (some p)] ++ [MmzCall.unmap y] := by
    have hturn : (c.call (.map phys (some p))).ptrAt (c.call (.map phys (some p))).turn = some y := hy
    rw [replace, hturn]
    rfl
  rw [hcalls, mapped_unmap, mapped_map_some]

theorem ptrs_replace {p : Nat} :
    ((c.call (.map phys (some p))).replace phys p).ptrs = c.ptrs.set c.turn p :=
  List.map_set

theorem Owns.replaced (hc : Owns c) (hfull : c.slots.length = mapcache) {p : Nat}
    (hfresh : p ∉ mapped c.calls) :
    Owns ((c.call (.map phys (some p))).replace phys p) := by
  obtain ⟨y, hy⟩ := exists_ptrAt_turn hfull
  have hlt : c.turn < c.ptrs.length := length_ptrs ▸ turn_lt hfull
  have hy' : c.ptrs[c.turn] = y := by
    rw [ptrAt_eq, List.getElem?_eq_getElem hlt] at hy
    exact Option.some.inj hy
  have hp : p ∉ c.ptrs := fun hmem => hfresh (hc.perm.mem_iff.mpr hmem)
  have hpy : p ≠ y := fun heq => hp (heq ▸ hy' ▸ List.getElem_mem hlt)
  -- the new mapping and the others that were there, without the one that had its turn
  have hset : (c.ptrs.set c.turn p).Perm (p :: c.ptrs.erase y) := by
    rw [← hy', hc.nodup.erase_getElem _ hlt]
    exact List.set_perm_cons_eraseIdx hlt p
  constructor
  · rw [mapped_replace hy, ptrs_replace, List.erase_cons_tail (by simpa using hpy)]
    exact ((hc.perm.erase y).cons p).trans hset.symm
  · rw [ptrs_replace, hset.nodup_iff]
    exact List.nodup_cons.mpr ⟨fun hmem => hp (List.mem_of_mem_erase hmem), hc.nodup.erase y⟩
  · exact (List.length_set).trans_le hc.size
  · intro hroom
    have hroom' : c.slots.length < mapcache := (List.length_set).symm.trans_lt hroom
    omega
  · exact hc.defined

theorem Owns.failed (hc : Owns c) : Owns (c.call (.map phys none)) where
  perm := by
    rw [call, mapped_map_none]
    exact hc.perm
  nodup := hc.nodup
  size := hc.size
  first := hc.first
  defined := hc.defined

theorem Owns.added (hc : Owns c) {p : Nat} (hfresh : p ∉ mapped c.calls)
    (hroom : c.slots.length < mapcache) :
    Owns { c.call (.map phys (some p)) with slots := c.slots ++ [⟨phys, p⟩] } := by
  have hptrs : ptrs { c.call (.map phys (some p)) with slots := c.slots ++ [⟨phys, p⟩] } = c.ptrs ++ [p] :=
    List.map_append
  have hp : p ∉ c.ptrs := fun hmem => hfresh (hc.perm.mem_iff.mpr hmem)
  constructor
  · rw [hptrs]
    exact (List.Perm.of_eq (mapped_map_some _ _ _)).trans
      ((hc.perm.cons p).trans (List.perm_append_singleton p c.ptrs).symm)
  · rw [hptrs]
    exact (List.perm_append_singleton p c.ptrs).nodup_iff.mpr (List.nodup_cons.mpr ⟨hp, hc.nodup⟩)
  · rw [List.length_append]
    exact hroom
  · intro _
    exact hc.first hroom
  · exact hc.defined

/-- What a lookup can do, while the turn does not overflow. -/
inductive Lookup (c : MapCache) (phys : BitVec 32) (answer : Option Nat) : Option Nat × MapCache → Prop
  | found (i : Nat) (hfind : c.find phys = some i) : Lookup c phys answer (c.ptrAt i, c)
  | failed (hfind : c.find phys = none) (ha : answer = none) :
    Lookup c phys answer (none, c.call (.map phys none))
  | added (p : Nat) (hfind : c.find phys = none) (ha : answer = some p)
      (hroom : c.slots.length < mapcache) :
    Lookup c phys answer
      (some p, { c.call (.map phys (some p)) with slots := c.slots ++ [⟨phys, p⟩] })
  | replaced (p : Nat) (hfind : c.find phys = none) (ha : answer = some p)
      (hfull : c.slots.length = mapcache) :
    Lookup c phys answer (some p, (c.call (.map phys (some p))).replace phys p)

theorem lookup_mapGet_of (hc : Owns c) (hnext : c.Replaces phys answer → c.next < intMax) :
    Lookup c phys answer (c.mapGet phys answer) := by
  cases hfind : c.find phys with
  | some i =>
    rw [mapGet_found hfind]
    exact .found i hfind
  | none =>
    cases answer with
    | none =>
      rw [mapGet_failed hfind]
      exact .failed hfind rfl
    | some p =>
      by_cases hroom : c.slots.length < mapcache
      · rw [mapGet_added hfind hroom]
        exact .added p hfind rfl hroom
      · have hfull : c.slots.length = mapcache := Nat.le_antisymm hc.size (Nat.not_lt.mp hroom)
        rw [mapGet_replaced hfind hfull (hnext ⟨hfull, hfind, rfl⟩)]
        exact .replaced p hfind rfl hfull

theorem lookup_mapGet (hc : Owns c) (hnext : c.next < intMax) :
    Lookup c phys answer (c.mapGet phys answer) :=
  lookup_mapGet_of hc fun _ => hnext

variable {r : Option Nat × MapCache}

theorem Lookup.owns (hr : Lookup c phys answer r) (hc : Owns c)
    (hfresh : ∀ p ∈ answer, p ∉ mapped c.calls) : Owns r.2 := by
  cases hr with
  | found i _ => exact hc
  | failed _ _ => exact hc.failed
  | added p _ ha hroom => exact hc.added (hfresh p ha) hroom
  | replaced p _ ha hfull => exact hc.replaced hfull (hfresh p ha)

theorem Lookup.next_le (hr : Lookup c phys answer r) : r.2.next ≤ c.next + 1 := by
  cases hr with
  | found i _ => exact Nat.le_succ _
  | failed _ _ => exact Nat.le_succ _
  | added p _ _ _ => exact Nat.le_succ _
  | replaced p _ _ _ => exact Nat.le_refl _

/-- The pointer that a lookup returns is in a slot; only a slot that was found can have the
turn. -/
theorem Lookup.place (hr : Lookup c phys answer r) (hc : Owns c) (hy : r.1 = some y) :
    ∃ i, r.2.ptrAt i = some y ∧
      (r.2.slots.length = mapcache → i = r.2.turn → r.2 = c ∧ c.find phys = some c.turn) := by
  cases hr with
  | found i hfind => exact ⟨i, hy, fun _ hturn => ⟨rfl, hturn ▸ hfind⟩⟩
  | failed _ _ => cases hy
  | added p _ _ hroom =>
    cases hy
    refine ⟨c.slots.length, by simp [ptrAt], fun hfull hturn => ?_⟩
    -- the last slot is taken now, and the turn is still with the first
    have hlast : c.slots.length + 1 = mapcache := by simpa using hfull
    have hturn' : c.slots.length = c.next % mapcache := hturn
    rw [hc.first hroom] at hturn'
    rw [hturn'] at hlast
    cases hlast
  | replaced p _ _ hfull =>
    cases hy
    refine ⟨c.turn, ?_, fun _ hturn => ?_⟩
    · rw [ptrAt_eq, ptrs_replace]
      exact List.getElem?_set_self (length_ptrs ▸ turn_lt hfull)
    · have hturn' : c.next % mapcache = (c.next + 1) % mapcache := hturn
      unfold mapcache at hturn'
      omega

theorem Lookup.stays (hr : Lookup c phys answer r) (hy : c.ptrAt i = some y)
    (hkeep : c.Replaces phys answer → i ≠ c.turn) : r.2.ptrAt i = some y := by
  cases hr with
  | found j _ => exact hy
  | failed _ _ => exact hy
  | added p _ _ _ =>
    obtain ⟨slot, hslot, hptr⟩ := Option.map_eq_some_iff.mp hy
    have hlt := (List.getElem?_eq_some_iff.mp hslot).1
    exact Option.map_eq_some_iff.mpr ⟨slot, (List.getElem?_append_left hlt).trans hslot, hptr⟩
  | replaced p hfind ha hfull =>
    have hne : i ≠ c.turn := hkeep ⟨hfull, hfind, ha ▸ rfl⟩
    rw [ptrAt_eq, ptrs_replace, List.getElem?_set_ne (Ne.symm hne), ← ptrAt_eq]
    exact hy

theorem notMem_mapped_mapGet (hc : Owns c) (hnext : c.next < intMax)
    (hfresh : ∀ p ∈ answer, p ∉ mapped c.calls) (hrep : c.Replaces phys answer)
    (hy : c.ptrAt c.turn = some y) : y ∉ mapped (c.mapGet phys answer).2.calls := by
  obtain ⟨hfull, hfind, hsome⟩ := hrep
  obtain ⟨p, rfl⟩ := Option.isSome_iff_exists.mp hsome
  rw [mapGet_replaced hfind hfull hnext, mapped_replace hy]
  have hnodup : (p :: mapped c.calls).Nodup :=
    List.nodup_cons.mpr ⟨hfresh p rfl, hc.perm.nodup_iff.mpr hc.nodup⟩
  exact hnodup.not_mem_erase

end MapCache

/-! ### The planes of a frame -/

namespace Daemon

def InUseMapped (d : Daemon) : Prop :=
  d.cache.overflowed = false ∧
    ∀ y vu, d.reading = some (y, vu) → y ∈ mapped d.cache.calls ∧ vu ∈ mapped d.cache.calls

/-- `nv21_from_frame` comes to the lookups. -/
def Looks (d : Daemon) (f : Frame) : Prop := d.stopped = false ∧ supported f = true ∧ f.Accepted

instance (d : Daemon) (f : Frame) : Decidable (d.Looks f) := inferInstanceAs (Decidable (_ ∧ _))

/-- `mmz_map` returns a pointer that is not mapped. -/
def Fresh (d : Daemon) : Event → Prop
  | .frame f first second .. =>
    (∀ p ∈ first, p ∉ mapped d.cache.calls) ∧
      ∀ p ∈ second, p ∉ mapped (d.cache.mapGet (f 2) first).2.calls
  | .sessionEnd _ => True

/-- The turn is not about to overflow. -/
def Early (d : Daemon) : Event → Prop
  | .frame .. => d.cache.next + 2 ≤ intMax
  | .sessionEnd _ => True

/-- The second lookup does not replace the mapping that the first one has found. -/
def KeepsFirst (d : Daemon) : Event → Prop
  | .frame f _ second .. =>
    ¬ (d.Looks f ∧ d.cache.find (f 2) = some d.cache.turn ∧ d.cache.Replaces (f 7) second)
  | .sessionEnd _ => True

instance (d : Daemon) : ∀ ev, Decidable (d.Fresh ev)
  | .frame .. => inferInstanceAs (Decidable (_ ∧ _))
  | .sessionEnd _ => .isTrue trivial

instance (d : Daemon) : ∀ ev, Decidable (d.Early ev)
  | .frame .. => inferInstanceAs (Decidable (_ ≤ _))
  | .sessionEnd _ => .isTrue trivial

instance (d : Daemon) : ∀ ev, Decidable (d.KeepsFirst ev)
  | .frame .. => inferInstanceAs (Decidable (¬ _))
  | .sessionEnd _ => .isTrue trivial

variable {d : Daemon} {f : Frame} {first second : Option Nat} {memory : Nat → Plane}
  {stack : Nat × Nat → Nat} {sent : Bool}

theorem step_unread (h : ¬ d.Looks f) :
    (d.step (.frame f first second memory stack sent)).cache = d.cache ∧
      (d.step (.frame f first second memory stack sent)).reading = none := by
  dsimp only [step]
  split_ifs with hstopped hsupported
  · exact ⟨rfl, rfl⟩
  · exact ⟨rfl, rfl⟩
  · have hrefused : ¬ f.Accepted := fun ha =>
      h ⟨Bool.eq_false_iff.mpr hstopped, by simpa using hsupported, ha⟩
    rw [nv21FromFrame, if_pos hrefused]
    exact ⟨rfl, rfl⟩

/-- A frame that comes to the lookups: `r` and `r'` are their results. -/
theorem step_looked (h : d.Looks f) {r r' : Option Nat × MapCache}
    (hr : d.cache.mapGet (f 2) first = r) (hr' : r.2.mapGet (f 7) second = r') :
    (d.step (.frame f first second memory stack sent)).cache = r'.2 ∧
      ∀ y vu, (d.step (.frame f first second memory stack sent)).reading = some (y, vu) ↔
        r.1 = some y ∧ r'.1 = some vu := by
  obtain ⟨hstopped, hsupported, ha⟩ := h
  dsimp only [step]
  rw [hstopped, hsupported, nv21FromFrame, if_neg (not_not_intro ha), hr]
  dsimp only
  rw [hr']
  obtain ⟨_ | y, c⟩ := r
  · exact ⟨rfl, fun y vu => ⟨fun h => (by cases h), fun h => (by cases h.1)⟩⟩
  · obtain ⟨_ | vu, c'⟩ := r'
    · exact ⟨rfl, fun y vu => ⟨fun h => (by cases h), fun h => (by cases h.2)⟩⟩
    · refine ⟨rfl, fun y' vu' => ⟨fun h => ?_, fun h => ?_⟩⟩
      · cases h
        exact ⟨rfl, rfl⟩
      · obtain ⟨hy, hvu⟩ := h
        cases hy
        cases hvu
        rfl

structure Inv (d : Daemon) : Prop where
  owns : d.cache.Owns
  inUse : d.InUseMapped

theorem Inv.unread {d' : Daemon} (hd : Inv d) (hcache : d'.cache = d.cache)
    (hreading : d'.reading = none) : Inv d' := by
  have howns : d'.cache.Owns := hcache ▸ hd.owns
  refine ⟨howns, howns.defined, fun y vu h => ?_⟩
  rw [hreading] at h
  cases h

theorem inv_frame (hd : Inv d) (hlooks : d.Looks f)
    (hfresh : d.Fresh (.frame f first second memory stack sent))
    (hearly : d.cache.next + 2 ≤ intMax)
    (hok : d.KeepsFirst (.frame f first second memory stack sent)) :
    Inv (d.step (.frame f first second memory stack sent)) := by
  obtain ⟨hfresh, hfresh'⟩ := hfresh
  have hfirst : MapCache.Lookup d.cache (f 2) first (d.cache.mapGet (f 2) first) :=
    MapCache.lookup_mapGet hd.owns (by omega)
  generalize hr : d.cache.mapGet (f 2) first = r at hfirst hfresh'
  have howns : r.2.Owns := hfirst.owns hd.owns hfresh
  have hnext : r.2.next < intMax := by
    have hle := hfirst.next_le
    omega
  have hsecond : MapCache.Lookup r.2 (f 7) second (r.2.mapGet (f 7) second) :=
    MapCache.lookup_mapGet howns hnext
  generalize hr' : r.2.mapGet (f 7) second = r' at hsecond
  have howns' : r'.2.Owns := hsecond.owns howns hfresh'
  obtain ⟨hcache, hreading⟩ := step_looked hlooks hr hr'
  refine ⟨hcache ▸ howns', hcache ▸ howns'.defined, fun y vu h => ?_⟩
  obtain ⟨hy, hvu⟩ := (hreading y vu).mp h
  obtain ⟨i, hplace, hfound⟩ := hfirst.place hd.owns hy
  have hkept : r'.2.ptrAt i = some y := by
    apply hsecond.stays hplace
    intro hrep hturn
    obtain ⟨hsame, hfind⟩ := hfound hrep.1 hturn
    rw [hsame] at hrep
    exact hok ⟨hlooks, hfind, hrep⟩
  obtain ⟨j, hplace', -⟩ := hsecond.place howns hvu
  rw [hcache]
  exact ⟨howns'.mem_mapped hkept, howns'.mem_mapped hplace'⟩

theorem inv_step {ev : Event} (hd : Inv d) (henv : d.Fresh ev ∧ d.Early ev) (hok : d.KeepsFirst ev) :
    Inv (d.step ev) := by
  cases ev with
  | sessionEnd scratch =>
    have howns : d.cache.clear.Owns := hd.owns.clear
    exact ⟨howns, howns.defined, fun y vu h => (by cases h)⟩
  | frame f first second memory stack sent =>
    by_cases hlooks : d.Looks f
    · exact inv_frame hd hlooks henv.1 henv.2 hok
    · obtain ⟨hcache, hreading⟩ := step_unread hlooks
      exact hd.unread hcache hreading

theorem not_inUseMapped_step {ev : Event} (hd : Inv d) (henv : d.Fresh ev ∧ d.Early ev)
    (hno : ¬ d.KeepsFirst ev) : ¬ (d.step ev).InUseMapped := by
  cases ev with
  | sessionEnd scratch => exact absurd trivial hno
  | frame f first second memory stack sent =>
    obtain ⟨⟨-, hfresh'⟩, hearly⟩ := henv
    have hnext : d.cache.next < intMax := Nat.lt_of_lt_of_le (by omega) hearly
    obtain ⟨hlooks, hfind, hrep⟩ := not_not.mp hno
    obtain ⟨y, hy⟩ := MapCache.exists_ptrAt_turn hrep.1
    have hr : d.cache.mapGet (f 2) first = (some y, d.cache) := by
      rw [MapCache.mapGet_found hfind, hy]
    rw [hr] at hfresh'
    have hgone := MapCache.notMem_mapped_mapGet hd.owns hnext hfresh' hrep hy
    obtain ⟨p, hp⟩ := Option.isSome_iff_exists.mp hrep.2.2
    have hvu : (d.cache.mapGet (f 7) second).1 = some p := by
      rw [hp, MapCache.mapGet_replaced hrep.2.1 hrep.1 hnext]
    obtain ⟨hcache, hreading⟩ := step_looked hlooks hr rfl
    intro hin
    have hmem := (hin.2 y p ((hreading y p).mpr ⟨rfl, hvu⟩)).1
    rw [hcache] at hmem
    exact hgone hmem

/-- Before the turn can overflow, and whatever is mapped or not: the planes are mapped while
they are read exactly in the runs in which no second lookup replaces what the first has
found. -/
theorem inUseMapped_iff (scratch : Scratch) (evs : List Event)
    (henv : History.Guarded step (fun d ev => d.Fresh ev ∧ d.Early ev) { scratch } evs) :
    History.Throughout step InUseMapped { scratch } evs ↔
      History.Guarded step KeepsFirst { scratch } evs := by
  have hstart : Inv { scratch } :=
    ⟨MapCache.owns_empty, rfl, fun y vu h => (by cases h)⟩
  exact History.throughout_iff_guarded_in (fun d ev hd henv hok => inv_step hd henv hok)
    (fun d hd => hd.inUse) (fun d ev hd henv hno => not_inUseMapped_step hd henv hno) hstart henv

def smallFrame (y vu : BitVec 32) : Frame := fun i =>
  if i = 71 then 64 else if i = 72 then 64 else if i = 6 then 64
  else if i = 2 then y else if i = 7 then vu else 0

/-- A frame whose buffers are mapped at these pointers, if they are not mapped yet. -/
def smallEvent (y vu : BitVec 32) (first second : Nat) : Event :=
  .frame (smallFrame y vu) (some first) (some second) (fun _ _ => 0) (fun _ => 0) true

def blank : Scratch := ⟨fun _ => 0, fun _ => 0, fun _ => 0, fun _ => 0⟩

def fourFrames : List Event :=
  [smallEvent 1 2 11 12, smallEvent 3 4 13 14, smallEvent 5 6 15 16, smallEvent 7 8 17 18]

theorem inUseMapped_replacing :
    History.Throughout step InUseMapped { scratch := blank } (fourFrames ++ [smallEvent 9 2 19 20]) :=
  (inUseMapped_iff blank _ (by decide)).mpr (by decide)

/-- The ninth address comes with the first one. -/
theorem first_plane_unmapped :
    ¬ ∀ (scratch : Scratch) (evs : List Event),
      History.Guarded step (fun d ev => d.Fresh ev ∧ d.Early ev) { scratch } evs →
        History.Throughout step InUseMapped { scratch } evs := by
  intro hall
  have henv : History.Guarded step (fun d ev => d.Fresh ev ∧ d.Early ev) { scratch := blank }
      (fourFrames ++ [smallEvent 1 9 21 19]) := by decide
  have hlast := History.throughout_last (hall blank _ henv)
  have hmem := (hlast.2 11 19 (by decide)).1
  exact absurd hmem (by decide)

end Daemon

end RustDesk.Goke
