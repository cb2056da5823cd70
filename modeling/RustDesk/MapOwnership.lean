import RustDesk.MapCache
import Mathlib.Data.List.Induction

/-!
# Ownership of the mapped buffers

The cache is used in two ways: a buffer is looked up, or all mappings are given back. Over any
sequence of these, what is mapped is what the slots hold. A pointer that was given back can be
given out by `mmz_map` again, so the mappings are told apart by where in `calls` they were
obtained.
-/

namespace RustDesk.Goke

/-! ### Maps and unmaps -/

def MmzCall.onLive (live : List Nat) : MmzCall → List Nat
  | .map _ (some p) => p :: live
  | .map _ none => live
  | .unmap p => live.erase p

/-- A map gives a pointer that is not mapped, an unmap takes one that is. -/
def MmzCall.Proper (live : List Nat) : MmzCall → Prop
  | .map _ (some p) => p ∉ live
  | .map _ none => True
  | .unmap p => p ∈ live

/-- How often `p` is unmapped before it is given out again. -/
def unmapsOf (p : Nat) : List MmzCall → Nat
  | [] => 0
  | .map _ answer :: calls => if answer = some p then 0 else unmapsOf p calls
  | .unmap q :: calls => (if q = p then 1 else 0) + unmapsOf p calls

theorem mapped_eq_run (calls : List MmzCall) : mapped calls = History.run MmzCall.onLive [] calls := by
  induction calls using List.reverseRecOn with
  | nil => rfl
  | append_singleton calls call ih =>
    rw [History.run_append, ← ih, History.run_cons, History.run_nil]
    cases call with
    | unmap p => exact mapped_unmap calls p
    | map phys answer =>
      cases answer with
      | none => exact mapped_map_none calls phys
      | some p => exact mapped_map_some calls phys p

section Calls

variable {live : List Nat} {calls : List MmzCall} {p : Nat}

theorem unmapsOf_eq_zero (hp : p ∉ live) (hcalls : History.Guarded MmzCall.onLive MmzCall.Proper live calls) :
    unmapsOf p calls = 0 := by
  induction calls generalizing live with
  | nil => rfl
  | cons call calls ih =>
    obtain ⟨hproper, hrest⟩ := hcalls
    cases call with
    | unmap q =>
      have hqp : q ≠ p := fun h => hp (h ▸ hproper)
      rw [unmapsOf, if_neg hqp, Nat.zero_add]
      exact ih (fun h => hp (List.mem_of_mem_erase h)) hrest
    | map phys answer =>
      by_cases hanswer : answer = some p
      · rw [unmapsOf, if_pos hanswer]
      · rw [unmapsOf, if_neg hanswer]
        apply ih _ hrest
        cases answer with
        | none => exact hp
        | some q =>
          intro h
          rcases List.mem_cons.mp h with h | h
          · exact hanswer (congrArg some h.symm)
          · exact hp h

/-- A mapping is unmapped at most once, and is mapped until then. -/
theorem unmapsOf_live (hlive : live.Nodup) (hp : p ∈ live)
    (hcalls : History.Guarded MmzCall.onLive MmzCall.Proper live calls) :
    unmapsOf p calls = 1 ∨ unmapsOf p calls = 0 ∧ p ∈ History.run MmzCall.onLive live calls := by
  induction calls generalizing live with
  | nil => exact Or.inr ⟨rfl, hp⟩
  | cons call calls ih =>
    obtain ⟨hproper, hrest⟩ := hcalls
    cases call with
    | unmap q =>
      by_cases hqp : q = p
      · subst hqp
        have hgone : unmapsOf q calls = 0 := unmapsOf_eq_zero hlive.not_mem_erase hrest
        left
        rw [unmapsOf, if_pos rfl, hgone]
      · rw [unmapsOf, if_neg hqp, Nat.zero_add]
        exact ih (hlive.erase q) ((List.mem_erase_of_ne fun h => hqp h.symm).mpr hp) hrest
    | map phys answer =>
      cases answer with
      | none =>
        rw [unmapsOf, if_neg (by simp)]
        exact ih hlive hp hrest
      | some q =>
        have hqp : ¬ some q = some p := fun h => hproper (Option.some.inj h ▸ hp)
        rw [unmapsOf, if_neg hqp]
        exact ih (List.nodup_cons.mpr ⟨hproper, hlive⟩) (List.mem_cons_of_mem q hp) hrest

theorem unmapsOf_le_append (rest : List MmzCall) : unmapsOf p calls ≤ unmapsOf p (calls ++ rest) := by
  induction calls with
  | nil => exact Nat.zero_le _
  | cons call calls ih =>
    rw [List.cons_append]
    cases call with
    | unmap q => exact Nat.add_le_add_left ih _
    | map phys answer =>
      by_cases hanswer : answer = some p
      · rw [unmapsOf, if_pos hanswer]
        exact Nat.zero_le _
      · rw [unmapsOf, unmapsOf, if_neg hanswer, if_neg hanswer]
        exact ih

theorem nodup_run (hlive : live.Nodup) (hcalls : History.Guarded MmzCall.onLive MmzCall.Proper live calls) :
    (History.run MmzCall.onLive live calls).Nodup := by
  induction calls generalizing live with
  | nil => exact hlive
  | cons call calls ih =>
    apply ih _ hcalls.2
    cases call with
    | unmap q => exact hlive.erase q
    | map phys answer =>
      cases answer with
      | none => exact hlive
      | some q => exact List.nodup_cons.mpr ⟨hcalls.1, hlive⟩

end Calls

/-- Every map and unmap so far was proper. -/
def ProperCalls (calls : List MmzCall) : Prop := History.Guarded MmzCall.onLive MmzCall.Proper [] calls

theorem ProperCalls.unmapsOf {before after : List MmzCall} {phys : BitVec 32} {p : Nat}
    (h : ProperCalls (before ++ .map phys (some p) :: after)) :
    Goke.unmapsOf p after = 1 ∨
      Goke.unmapsOf p after = 0 ∧ p ∈ mapped (before ++ .map phys (some p) :: after) := by
  obtain ⟨hfresh, hafter⟩ := History.guarded_right h
  have hlive : (History.run MmzCall.onLive [] before).Nodup :=
    nodup_run List.nodup_nil (History.guarded_left h)
  have hnodup : (p :: History.run MmzCall.onLive [] before).Nodup := List.nodup_cons.mpr ⟨hfresh, hlive⟩
  rw [mapped_eq_run, History.run_append, History.run_cons]
  exact unmapsOf_live hnodup List.mem_cons_self hafter

theorem ProperCalls.snoc {calls : List MmzCall} {call : MmzCall} (h : ProperCalls calls)
    (hcall : call.Proper (mapped calls)) : ProperCalls (calls ++ [call]) :=
  History.guarded_append h ⟨mapped_eq_run calls ▸ hcall, trivial⟩

theorem ProperCalls.unmap_all {calls : List MmzCall} {ps : List Nat} (h : ProperCalls calls)
    (hps : (mapped calls).Perm ps) : ProperCalls (calls ++ ps.map .unmap) := by
  induction ps generalizing calls with
  | nil => simpa using h
  | cons p ps ih =>
    have hp : p ∈ mapped calls := hps.mem_iff.mpr List.mem_cons_self
    have hrest : (mapped (calls ++ [MmzCall.unmap p])).Perm ps := by
      simpa using hps.erase p
    have hproper : ProperCalls (calls ++ [MmzCall.unmap p]) := h.snoc hp
    simpa using ih hproper hrest

namespace MapCache

variable {c : MapCache} {phys : BitVec 32} {answer : Option Nat} {r : Option Nat × MapCache}

inductive Use
  | mapGet (phys : BitVec 32) (answer : Option Nat)
  | clear
  deriving DecidableEq, Repr

def use (c : MapCache) : Use → MapCache
  | .mapGet phys answer => (c.mapGet phys answer).2
  | .clear => c.clear

/-- `mmz_map` returns `NULL` or a pointer to what is not mapped yet. -/
def FreshAnswer (c : MapCache) : Use → Prop
  | .mapGet _ answer => ∀ p ∈ answer, p ∉ mapped c.calls
  | .clear => True

instance (c : MapCache) : (u : Use) → Decidable (c.FreshAnswer u)
  | .mapGet _ answer => inferInstanceAs (Decidable (∀ p ∈ answer, p ∉ mapped c.calls))
  | .clear => .isTrue trivial

def evicts (c : MapCache) : Use → Nat
  | .mapGet phys answer => if c.Replaces phys answer then 1 else 0
  | .clear => 0

def evictions : MapCache → List Use → Nat
  | _, [] => 0
  | c, u :: us => c.evicts u + evictions (c.use u) us

def addresses (c : MapCache) : List (BitVec 32) := c.slots.map (·.phys)

/-- What holds of the cache after any uses. -/
structure Sound (c : MapCache) : Prop where
  owns : Owns c
  addresses : c.addresses.Nodup
  proper : ProperCalls c.calls

theorem notMem_addresses (h : c.find phys = none) : phys ∉ c.addresses := by
  intro hmem
  obtain ⟨slot, hslot, hphys⟩ := List.mem_map.mp hmem
  have hno := List.findIdx?_eq_none_iff.mp h slot hslot
  exact absurd hphys (of_decide_eq_false hno)

theorem Lookup.addresses (hr : Lookup c phys answer r) (hc : c.addresses.Nodup) : r.2.addresses.Nodup := by
  cases hr with
  | found i _ => exact hc
  | failed _ _ => exact hc
  | added p hfind _ _ =>
    have hsnoc : (c.slots ++ [Slot.mk phys p]).map (·.phys) = c.addresses ++ [phys] := List.map_append
    rw [MapCache.addresses, hsnoc, (List.perm_append_singleton phys _).nodup_iff]
    exact List.nodup_cons.mpr ⟨notMem_addresses hfind, hc⟩
  | replaced p hfind _ hfull =>
    have hset : (c.slots.set c.turn ⟨phys, p⟩).map Slot.phys = c.addresses.set c.turn phys := List.map_set
    have hlt : c.turn < c.addresses.length := by
      rw [MapCache.addresses, List.length_map]
      exact turn_lt hfull
    change ((c.slots.set c.turn ⟨phys, p⟩).map Slot.phys).Nodup
    rw [hset, (List.set_perm_cons_eraseIdx hlt phys).nodup_iff]
    refine List.nodup_cons.mpr ⟨fun hmem => notMem_addresses hfind ?_, ?_⟩
    · exact (List.eraseIdx_sublist _ _).subset hmem
    · exact hc.sublist (List.eraseIdx_sublist _ _)

theorem Lookup.proper (hr : Lookup c phys answer r) (hown : Owns c) (hc : ProperCalls c.calls)
    (hfresh : ∀ p ∈ answer, p ∉ mapped c.calls) : ProperCalls r.2.calls := by
  cases hr with
  | found i _ => exact hc
  | failed _ _ => exact hc.snoc trivial
  | added p _ ha _ =>
    have hp : p ∉ mapped c.calls := hfresh p ha
    exact hc.snoc hp
  | replaced p _ ha hfull =>
    have hp : p ∉ mapped c.calls := hfresh p ha
    have hmap : ProperCalls (c.calls ++ [MmzCall.map phys (some p)]) := hc.snoc hp
    -- the mapping that has its turn is in a slot, so it is mapped
    obtain ⟨y, hy⟩ := exists_ptrAt_turn hfull
    have hlive : y ∈ mapped (c.calls ++ [MmzCall.map phys (some p)]) := by
      rw [mapped_map_some]
      exact List.mem_cons_of_mem p (hown.mem_mapped hy)
    have hturn : (c.call (.map phys (some p))).ptrAt (c.call (.map phys (some p))).turn = some y := hy
    rw [replace, hturn]
    exact hmap.snoc hlive

theorem Lookup.next_eq (hr : Lookup c phys answer r) :
    r.2.next = c.next + c.evicts (.mapGet phys answer) := by
  cases hr with
  | found i hfind =>
    have hno : ¬ c.Replaces phys answer := fun h => by simp [h.2.1] at hfind
    rw [evicts, if_neg hno, Nat.add_zero]
  | failed _ ha =>
    have hno : ¬ c.Replaces phys answer := by
      intro h
      have hsome := h.2.2
      rw [ha] at hsome
      cases hsome
    rw [evicts, if_neg hno]
    rfl
  | added p _ _ hroom =>
    have hno : ¬ c.Replaces phys answer := fun h => by have := h.1; omega
    rw [evicts, if_neg hno]
    rfl
  | replaced p hfind ha hfull =>
    have hyes : c.Replaces phys answer := ⟨hfull, hfind, ha ▸ rfl⟩
    rw [evicts, if_pos hyes]
    rfl

/-- The turn has not moved so far that this use makes it overflow. -/
def Counts (c : MapCache) (u : Use) : Prop := c.next + c.evicts u ≤ intMax

theorem lookup_of_counts (hc : Owns c) (hcount : c.Counts (.mapGet phys answer)) :
    Lookup c phys answer (c.mapGet phys answer) := by
  apply lookup_mapGet_of hc
  intro hrep
  rw [Counts, evicts, if_pos hrep] at hcount
  exact hcount

theorem next_use_le {u : Use} (hc : Owns c) (hcount : c.Counts u) :
    (c.use u).next ≤ c.next + c.evicts u := by
  cases u with
  | mapGet phys answer => exact (lookup_of_counts hc hcount).next_eq.le
  | clear => exact Nat.zero_le _

theorem Sound.clear (hc : Sound c) : Sound c.clear := by
  have hcalls : ProperCalls (c.calls ++ c.ptrs.map .unmap) := hc.proper.unmap_all hc.owns.perm
  rw [ptrs, List.map_map] at hcalls
  exact ⟨hc.owns.clear, List.nodup_nil, hcalls⟩

theorem Sound.use {u : Use} (hc : Sound c) (hfresh : c.FreshAnswer u) (hcount : c.Counts u) :
    Sound (c.use u) := by
  cases u with
  | mapGet phys answer =>
    have hr := lookup_of_counts hc.owns hcount
    exact ⟨hr.owns hc.owns hfresh, hr.addresses hc.addresses, hr.proper hc.owns hc.proper hfresh⟩
  | clear => exact hc.clear

theorem sound_empty : Sound {} := ⟨owns_empty, List.nodup_nil, trivial⟩

/-- Few evictions keep every use of the run from overflowing the turn. -/
theorem guarded_counts {us : List Use} (hc : Sound c) (hfresh : History.Guarded MapCache.use FreshAnswer c us)
    (hfew : c.next + evictions c us ≤ intMax) :
    History.Guarded MapCache.use (fun c u => c.FreshAnswer u ∧ c.Counts u) c us := by
  induction us generalizing c with
  | nil => trivial
  | cons u us ih =>
    have hsplit : evictions c (u :: us) = c.evicts u + evictions (c.use u) us := rfl
    have hcount : c.Counts u := by rw [Counts]; omega
    have hnext := next_use_le hc.owns hcount
    exact ⟨⟨hfresh.1, hcount⟩, ih (hc.use hfresh.1 hcount) hfresh.2 (by omega)⟩

theorem calls_use (c : MapCache) (u : Use) : ∃ more, (c.use u).calls = c.calls ++ more := by
  cases u with
  | clear => exact ⟨_, rfl⟩
  | mapGet phys answer =>
    simp only [MapCache.use, MapCache.mapGet]
    split
    · exact ⟨[], (List.append_nil _).symm⟩
    · split
      · exact ⟨_, rfl⟩
      · split
        · exact ⟨_, rfl⟩
        · split
          · exact ⟨_, rfl⟩
          · exact ⟨_, List.append_assoc _ _ _⟩

theorem calls_run (c : MapCache) (us : List Use) :
    ∃ more, (History.run MapCache.use c us).calls = c.calls ++ more := by
  induction us generalizing c with
  | nil => exact ⟨[], (List.append_nil _).symm⟩
  | cons u us ih =>
    obtain ⟨first, hfirst⟩ := calls_use c u
    obtain ⟨more, hmore⟩ := ih (c.use u)
    refine ⟨first ++ more, ?_⟩
    rw [History.run_cons, hmore, hfirst, List.append_assoc]

/-- The slots own the mappings: what is mapped is what they hold, by different addresses; only
what is mapped is unmapped, and no mapping more than once. -/
structure Ownership (c : MapCache) : Prop where
  defined : c.overflowed = false
  live : ∀ p, p ∈ mapped c.calls ↔ p ∈ c.ptrs
  once : (mapped c.calls).Nodup ∧ c.ptrs.Nodup
  addresses : c.addresses.Nodup
  unmaps_live : ∀ before p after, c.calls = before ++ .unmap p :: after → p ∈ mapped before
  unmaps_le : ∀ before phys p after, c.calls = before ++ .map phys (some p) :: after →
    unmapsOf p after ≤ 1

theorem Sound.ownership (hc : Sound c) : Ownership c where
  defined := hc.owns.defined
  live p := hc.owns.perm.mem_iff
  once := ⟨hc.owns.perm.nodup_iff.mpr hc.owns.nodup, hc.owns.nodup⟩
  addresses := hc.addresses
  unmaps_live before p after hcalls := by
    have hproper := hc.proper
    rw [hcalls] at hproper
    rw [mapped_eq_run]
    exact (History.guarded_right hproper).1
  unmaps_le before phys p after hcalls := by
    have hproper := hc.proper
    rw [hcalls] at hproper
    rcases hproper.unmapsOf with h | h
    · exact h.le
    · exact h.1.le.trans (Nat.zero_le 1)

theorem Sound.unmapsOf_clear (hc : Sound c) {before after : List MmzCall} {p : Nat}
    (hcalls : c.clear.calls = before ++ .map phys (some p) :: after) : unmapsOf p after = 1 := by
  have hnone : mapped c.clear.calls = [] := List.Perm.eq_nil hc.clear.owns.perm
  have hproper := hc.clear.proper
  rw [hcalls] at hproper hnone
  rcases hproper.unmapsOf with h | h
  · exact h
  · rw [hnone] at h
    exact absurd h.2 List.not_mem_nil

/-- A mapping that was obtained before a clear is unmapped once, now and for ever. -/
theorem unmapsOf_of_clear {later : List Use} {before after : List MmzCall} {p : Nat} (hc : Sound c)
    (hend : Sound (History.run MapCache.use c (.clear :: later)))
    (hcalls : c.calls = before ++ .map phys (some p) :: after) :
    ∃ more, (History.run MapCache.use c (.clear :: later)).calls =
        before ++ .map phys (some p) :: (after ++ more) ∧ unmapsOf p (after ++ more) = 1 := by
  obtain ⟨more, hmore⟩ := calls_run c.clear later
  let unmaps := c.slots.map fun s => MmzCall.unmap s.ptr
  have hclear : c.clear.calls = before ++ .map phys (some p) :: (after ++ unmaps) := by
    rw [clear, hcalls, List.append_assoc, List.cons_append]
  have hrun : (History.run MapCache.use c (.clear :: later)).calls =
      before ++ .map phys (some p) :: (after ++ (unmaps ++ more)) := by
    rw [History.run_cons, use, hmore, hclear, List.append_assoc, List.cons_append, List.append_assoc]
  refine ⟨unmaps ++ more, hrun, Nat.le_antisymm (hend.ownership.unmaps_le _ _ _ _ hrun) ?_⟩
  calc 1 = unmapsOf p (after ++ unmaps) := (hc.unmapsOf_clear hclear).symm
    _ ≤ unmapsOf p (after ++ unmaps ++ more) := unmapsOf_le_append more
    _ = unmapsOf p (after ++ (unmaps ++ more)) := by rw [List.append_assoc]

/-- Over any lookups and clears with fewer than 2^31 evictions the slots own the mappings, and
a clear makes one unmap the share of each mapping before it. -/
theorem ownership_of_uses (us : List Use) (hfresh : History.Guarded MapCache.use FreshAnswer {} us)
    (hfew : evictions {} us < 2 ^ 31) :
    History.Throughout MapCache.use Ownership {} us ∧
      ∀ first later, us = first ++ .clear :: later → ∀ before phys p after,
        (History.run MapCache.use {} first).calls = before ++ .map phys (some p) :: after →
          ∃ more, (History.run MapCache.use {} us).calls =
              before ++ .map phys (some p) :: (after ++ more) ∧ unmapsOf p (after ++ more) = 1 := by
  have hnext : ({} : MapCache).next + evictions {} us ≤ intMax := by
    have hzero : ({} : MapCache).next = 0 := rfl
    have hmax : intMax = 2 ^ 31 - 1 := rfl
    omega
  have hguard := guarded_counts sound_empty hfresh hnext
  have hsound : ∀ {us : List Use},
      History.Guarded MapCache.use (fun c u => c.FreshAnswer u ∧ c.Counts u) {} us →
        History.Throughout MapCache.use Sound {} us := fun h =>
    History.throughout_of_guarded (fun c u hc hu => hc.use hu.1 hu.2) sound_empty h
  refine ⟨History.throughout_imp (fun c hc => hc.ownership) (hsound hguard), ?_⟩
  intro first later hus before phys p after hcalls
  subst hus
  have hfirst := History.throughout_last (hsound (History.guarded_left hguard))
  have hend := History.throughout_last (hsound hguard)
  rw [History.run_append] at hend ⊢
  exact unmapsOf_of_clear hfirst hend hcalls

/-- Nine addresses; the first is evicted, is mapped again where it was, and all are given back. -/
def nineUses : List Use :=
  [.mapGet 1 (some 11), .mapGet 2 (some 12), .mapGet 3 none, .mapGet 3 (some 13), .mapGet 4 (some 14),
    .mapGet 5 (some 15), .mapGet 6 (some 16), .mapGet 7 (some 17), .mapGet 8 (some 18),
    .mapGet 9 (some 19), .mapGet 1 (some 11), .clear, .mapGet 1 (some 11)]

theorem ownership_of_nineUses :
    History.Throughout MapCache.use Ownership {} nineUses :=
  (ownership_of_uses nineUses (by decide) (by decide)).1

end MapCache

end RustDesk.Goke
