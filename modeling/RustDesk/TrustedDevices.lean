import RustDesk.ConnectionState
import RustDesk.Linearization
import Mathlib.Logic.Function.Basic

/-!
# The list of trusted devices

The list is kept twice: encrypted in the second configuration, and in the open in a cache
that is filled when the list is first asked for. An operation reads the list, changes what
it read and writes it back; only the single accesses hold a lock, so that the steps of
several operations may mix. The age of the devices is left aside here.
-/

namespace RustDesk

/-- The length up to which the JSON text of the list is stored. -/
def trustedDevicesMaxLen : Nat := 1024 * 1024

/-- How the list is stored: its JSON text, encrypted. What was encrypted decrypts again, and
it is then not stored anew, as there is one version of the encryption only. -/
structure DeviceStorage (σ : Type) where
  jsonLen : List TrustedDevice → Nat
  encrypt : List TrustedDevice → σ
  decrypt : σ → Option (List TrustedDevice)
  decrypt_encrypt : ∀ devices, jsonLen devices ≤ trustedDevicesMaxLen →
    decrypt (encrypt devices) = some devices
  jsonLen_nil : jsonLen [] = 2

inductive DeviceOp
  | add (device : TrustedDevice)
  | remove (hwids : List Bytes)
  | clear
  | get
  deriving DecidableEq, Repr

/-- What an operation makes of the list it read. -/
def DeviceOp.modify : DeviceOp → List TrustedDevice → List TrustedDevice
  | .add device, devices => devices.filter (fun d => d.hwid ≠ device.hwid) ++ [device]
  | .remove hwids, devices => devices.filter fun d => d.hwid ∉ hwids
  | .clear, _ => []
  | .get, devices => devices

/-- Where an operation stands: `devices` is the list that it has read. -/
inductive DevicePhase
  | idle
  | readConfig
  | syncCache (devices : List TrustedDevice)
  | write (devices : List TrustedDevice)
  | done
  deriving DecidableEq, Repr

/-- The list that an operation has read and is about to write, as it is or changed. -/
def DevicePhase.base : DevicePhase → Option (List TrustedDevice)
  | .syncCache devices => some devices
  | .write devices => some devices
  | _ => none

/-- `cache` is the list and whether it is filled; `completed` are the operations that have
returned, in this order. -/
structure TrustedDevices (σ : Type) where
  cache : List TrustedDevice × Bool := ([], false)
  config2 : σ
  phase : Nat → DevicePhase := fun _ => .idle
  completed : List Nat := []

namespace TrustedDevices

variable {σ : Type}

def enter (s : TrustedDevices σ) (k : Nat) (p : DevicePhase) : TrustedDevices σ :=
  { s with phase := Function.update s.phase k p }

def finish (s : TrustedDevices σ) (k : Nat) : TrustedDevices σ :=
  { s.enter k .done with completed := s.completed ++ [k] }

/-- `get_trusted_devices` has returned to the operation that called it. -/
def got (s : TrustedDevices σ) (k : Nat) (o : DeviceOp) (devices : List TrustedDevice) :
    TrustedDevices σ :=
  if o = .get then s.finish k else s.enter k (.write devices)

/-- `set_trusted_devices`: both copies are written under the lock of the configuration. -/
def setTrustedDevices (st : DeviceStorage σ) (s : TrustedDevices σ) (devices : List TrustedDevice) :
    TrustedDevices σ :=
  if st.jsonLen devices > trustedDevicesMaxLen then s
  else { s with config2 := st.encrypt devices, cache := (devices, true) }

/-- The next step of the operation `k`. -/
def step (st : DeviceStorage σ) (op : Nat → DeviceOp) (s : TrustedDevices σ) (k : Nat) :
    TrustedDevices σ :=
  match s.phase k with
  | .idle =>
    if op k = .clear then (s.setTrustedDevices st []).finish k
    else if s.cache.2 then s.got k (op k) s.cache.1
    else s.enter k .readConfig
  | .readConfig =>
    match st.decrypt s.config2 with
    | some devices => s.enter k (.syncCache devices)
    | none => s.got k (op k) []
  | .syncCache devices => { s with cache := (devices, true) }.got k (op k) devices
  | .write devices => (s.setTrustedDevices st ((op k).modify devices)).finish k
  | .done => s

/-- The list in the configuration, and the one that is in force. -/
def stored (st : DeviceStorage σ) (s : TrustedDevices σ) : List TrustedDevice :=
  (st.decrypt s.config2).getD []

def devices (st : DeviceStorage σ) (s : TrustedDevices σ) : List TrustedDevice :=
  if s.cache.2 then s.cache.1 else s.stored st

end TrustedDevices

/-- An operation carried out on its own. -/
def DeviceOp.apply {σ : Type} (st : DeviceStorage σ) (o : DeviceOp) (devices : List TrustedDevice) :
    List TrustedDevice :=
  if o = .get ∨ st.jsonLen (o.modify devices) > trustedDevicesMaxLen then devices
  else o.modify devices

/-- An operation takes a device out of the list. -/
def DeviceOp.Displaces (d : TrustedDevice) : DeviceOp → Prop
  | .add device => device.hwid = d.hwid ∧ device ≠ d
  | .remove hwids => d.hwid ∈ hwids
  | .clear => True
  | .get => False

namespace TrustedDeviceRuns

open TrustedDevices History Linearization

variable {σ : Type} {st : DeviceStorage σ} {op : Nat → DeviceOp} {s : TrustedDevices σ} {k : Nat}

/-- When an operation writes the list it has read, as it is or changed, the list is still the
one that it read. -/
def Fresh (st : DeviceStorage σ) (s : TrustedDevices σ) (k : Nat) : Prop :=
  ∀ devices ∈ (s.phase k).base, devices = s.devices st

instance (st : DeviceStorage σ) (s : TrustedDevices σ) (k : Nat) : Decidable (Fresh st s k) :=
  inferInstanceAs (Decidable (∀ _ ∈ _, _))

/-- `a` had returned when `b` was not yet called. -/
def ReturnsBefore (st : DeviceStorage σ) (op : Nat → DeviceOp) (text : σ) (is : List Nat)
    (a b : Nat) : Prop :=
  ∃ front back, is = front ++ back ∧
    (run (step st op) { config2 := text } front).phase a = .done ∧
    (run (step st op) { config2 := text } front).phase b = .idle

/-- The run ends as if its operations had been carried out one after the other. -/
structure RunsAs (st : DeviceStorage σ) (op : Nat → DeviceOp) (text : σ) (is order : List Nat) :
    Prop where
  nodup : order.Nodup
  completed : ∀ k, k ∈ order ↔ (run (step st op) { config2 := text } is).phase k = .done
  realTime : ∀ a ∈ order, ∀ b ∈ order, ReturnsBefore st op text is a b →
    order.idxOf a < order.idxOf b
  result : (run (step st op) { config2 := text } is).devices st =
    order.foldl (fun l k => (op k).apply st l) ((st.decrypt text).getD [])
  stored : (run (step st op) { config2 := text } is).stored st =
    (run (step st op) { config2 := text } is).devices st

/-- The list was too long to be written when it was the turn of the operation. -/
def Refused (st : DeviceStorage σ) (op : Nat → DeviceOp) (text : σ) (order : List Nat) (a : Nat) :
    Prop :=
  ∃ before after, order = before ++ a :: after ∧ trustedDevicesMaxLen < st.jsonLen
    ((op a).modify (before.foldl (fun l k => (op k).apply st l) ((st.decrypt text).getD [])))

/-- The state between two steps: both copies agree, and `completed` is right. -/
structure Consistent (st : DeviceStorage σ) (op : Nat → DeviceOp) (start : List TrustedDevice)
    (s : TrustedDevices σ) : Prop where
  stored : s.stored st = s.devices st
  completed : ∀ k, k ∈ s.completed ↔ s.phase k = .done
  serial : Serial (TrustedDevices.devices st) TrustedDevices.completed
    (fun k => (op k).apply st) start s

/-! ### The parts of a step -/

theorem devices_set (devices : List TrustedDevice)
    (h : s.stored st = s.devices st) :
    (s.setTrustedDevices st devices).devices st =
      (if st.jsonLen devices > trustedDevicesMaxLen then s.devices st else devices) ∧
    (s.setTrustedDevices st devices).stored st = (s.setTrustedDevices st devices).devices st := by
  unfold setTrustedDevices
  split_ifs with hlen
  · exact ⟨rfl, h⟩
  · refine ⟨rfl, ?_⟩
    simp only [TrustedDevices.stored, TrustedDevices.devices,
      st.decrypt_encrypt devices (by omega), Option.getD_some, if_true]

theorem completed_finish (h : ∀ j, j ∈ s.completed ↔ s.phase j = .done) (j : Nat) :
    j ∈ (s.finish k).completed ↔ (s.finish k).phase j = .done := by
  simp only [finish, enter, List.mem_append, List.mem_singleton, h j]
  by_cases hj : j = k
  · simp [hj]
  · simp [hj]

theorem completed_enter {p : DevicePhase} (h : ∀ j, j ∈ s.completed ↔ s.phase j = .done)
    (hk : s.phase k ≠ .done) (hp : p ≠ .done) (j : Nat) :
    j ∈ (s.enter k p).completed ↔ (s.enter k p).phase j = .done := by
  simp only [enter, h j]
  by_cases hj : j = k
  · simp [hj, hk, hp]
  · simp [hj]

theorem Consistent.keep {start : List TrustedDevice} {s' : TrustedDevices σ}
    (h : Consistent st op start s) (hst : s'.stored st = s'.devices st)
    (hd : s'.devices st = s.devices st) (hc : s'.completed = s.completed)
    (hphase : ∀ j, j ∈ s'.completed ↔ s'.phase j = .done) : Consistent st op start s' :=
  ⟨hst, hphase, Point.serial (k := 0) (.inl ⟨hd, hc⟩) h.serial⟩

theorem consistent_enter {start : List TrustedDevice} {p : DevicePhase}
    (h : Consistent st op start s) (hk : s.phase k ≠ .done) (hp : p ≠ .done) :
    Consistent st op start (s.enter k p) :=
  h.keep h.stored rfl rfl (completed_enter h.completed hk hp)

/-- `get_trusted_devices` has returned: the operation goes on to write, or it ends. -/
theorem consistent_got {start : List TrustedDevice} (h : Consistent st op start s)
    (hk : s.phase k ≠ .done) (devices : List TrustedDevice) :
    Consistent st op start (s.got k (op k) devices) := by
  have hnot : k ∉ s.completed := fun hmem => hk ((h.completed k).mp hmem)
  unfold got
  split_ifs with hget
  · refine ⟨h.stored, completed_finish h.completed, ?_⟩
    refine Point.serial (.inr ⟨hnot, ?_, rfl⟩) h.serial
    exact (if_pos (.inl hget)).symm
  · exact consistent_enter h hk (by simp)

/-- The list that is in force is changed by the operation and written. -/
theorem consistent_set {start : List TrustedDevice} (h : Consistent st op start s)
    (hk : s.phase k ≠ .done) :
    Consistent st op start
      ((s.setTrustedDevices st ((op k).modify (s.devices st))).finish k) := by
  have hnot : k ∉ s.completed := fun hmem => hk ((h.completed k).mp hmem)
  obtain ⟨hdev, hst⟩ := devices_set ((op k).modify (s.devices st)) h.stored
  have hphase : (s.setTrustedDevices st ((op k).modify (s.devices st))).phase = s.phase := by
    unfold setTrustedDevices
    split_ifs <;> rfl
  have hcomp : (s.setTrustedDevices st ((op k).modify (s.devices st))).completed = s.completed := by
    unfold setTrustedDevices
    split_ifs <;> rfl
  refine ⟨hst, completed_finish (by rw [hphase, hcomp]; exact h.completed), ?_⟩
  refine Point.serial (.inr ⟨hnot, ?_, ?_⟩) h.serial
  · refine Eq.trans hdev ?_
    by_cases hget : op k = .get
    · simp [DeviceOp.apply, hget, DeviceOp.modify]
    · simp [DeviceOp.apply, hget]
  · simp only [finish, hcomp]

theorem consistent_step {start : List TrustedDevice} (h : Consistent st op start s)
    (hok : Fresh st s k) : Consistent st op start (step st op s k) := by
  unfold step
  split
  · next hk =>
    have hne : s.phase k ≠ .done := by simp [hk]
    split_ifs with hclear hsync
    · have hset := consistent_set h hne
      rwa [hclear] at hset
    · exact consistent_got h hne s.cache.1
    · exact consistent_enter h hne (by simp)
  · next hk =>
    have hne : s.phase k ≠ .done := by simp [hk]
    split
    · exact consistent_enter h hne (by simp)
    · exact consistent_got h hne []
  · next devices hk =>
    have hbase : devices = s.devices st := hok devices (by rw [hk]; rfl)
    -- the cache is filled with what it would have had anyway
    have hfill : Consistent st op start { s with cache := (devices, true) } := by
      refine h.keep ?_ hbase rfl h.completed
      rw [show ({ s with cache := (devices, true) } : TrustedDevices σ).devices st = devices from rfl,
        hbase, ← h.stored]
      rfl
    exact consistent_got hfill (by simp [hk]) devices
  · next devices hk =>
    have hbase : devices = s.devices st := hok devices (by rw [hk]; rfl)
    have hne : s.phase k ≠ .done := by simp [hk]
    rw [hbase]
    exact consistent_set h hne
  · exact h

theorem consistent_init (text : σ) :
    Consistent st op ((st.decrypt text).getD []) { config2 := text } where
  stored := rfl
  completed := fun k => by simp
  serial := ⟨List.nodup_nil, rfl⟩

/-- Whatever the operations read, they complete one after the other. -/
theorem completed_step (s : TrustedDevices σ) (k : Nat) :
    s.completed <+: (step st op s k).completed := by
  have hgot : ∀ (t : TrustedDevices σ) (devices : List TrustedDevice),
      t.completed <+: (t.got k (op k) devices).completed := by
    intro t devices
    unfold got
    split_ifs
    · exact List.prefix_append _ _
    · exact List.prefix_rfl
  have hset : ∀ devices : List TrustedDevice,
      s.completed <+: ((s.setTrustedDevices st devices).finish k).completed := by
    intro devices
    unfold setTrustedDevices
    split_ifs <;> exact List.prefix_append _ _
  unfold step
  split
  · split_ifs
    · exact hset _
    · exact hgot s _
    · exact List.prefix_rfl
  · split
    · exact List.prefix_rfl
    · exact hgot s _
  · next devices _ => exact hgot { s with cache := (devices, true) } devices
  · exact hset _
  · exact List.prefix_rfl

theorem phase_step (s : TrustedDevices σ) {j k : Nat} (h : j ≠ k) :
    (step st op s k).phase j = s.phase j := by
  have hgot : ∀ (t : TrustedDevices σ) (devices : List TrustedDevice),
      (t.got k (op k) devices).phase j = t.phase j := by
    intro t devices
    unfold got finish enter
    split_ifs <;> exact Function.update_of_ne h _ _
  have hset : ∀ devices : List TrustedDevice,
      ((s.setTrustedDevices st devices).finish k).phase j = s.phase j := by
    intro devices
    unfold setTrustedDevices finish enter
    split_ifs <;> exact Function.update_of_ne h _ _
  unfold step
  split
  · split_ifs
    · exact hset _
    · exact hgot s _
    · exact Function.update_of_ne h _ _
  · split
    · exact Function.update_of_ne h _ _
    · exact hgot s _
  · next devices _ => exact hgot { s with cache := (devices, true) } devices
  · exact hset _
  · rfl

theorem phase_run (s : TrustedDevices σ) {j : Nat} : ∀ is : List Nat, j ∉ is →
    (run (step st op) s is).phase j = s.phase j := by
  intro is
  induction is generalizing s with
  | nil => exact fun _ => rfl
  | cons k is ih =>
    intro h
    rw [List.mem_cons, not_or] at h
    rw [run_cons, ih _ h.2, phase_step s h.1]

theorem consistent_run (text : σ) {is : List Nat}
    (h : Guarded (step st op) (Fresh st) { config2 := text } is) :
    Consistent st op ((st.decrypt text).getD []) (run (step st op) { config2 := text } is) :=
  throughout_last (throughout_of_guarded (fun _ _ => consistent_step) (consistent_init text) h)

/-! ### One operation after the other -/

theorem mem_apply {o : DeviceOp} {d : TrustedDevice} {l : List TrustedDevice}
    (h : d ∈ o.apply st l) : d ∈ l ∨ o = .add d := by
  unfold DeviceOp.apply at h
  split_ifs at h
  · exact .inl h
  · cases o with
    | add device =>
      rcases List.mem_append.mp h with h | h
      · exact .inl (List.mem_filter.mp h).1
      · exact .inr (by rw [List.mem_singleton.mp h])
    | remove hwids => exact .inl (List.mem_filter.mp h).1
    | clear => exact absurd h List.not_mem_nil
    | get => exact .inl h

theorem mem_foldl_apply {d : TrustedDevice} : ∀ (ks : List Nat) (l : List TrustedDevice),
    d ∈ ks.foldl (fun l k => (op k).apply st l) l → d ∈ l ∨ ∃ k ∈ ks, op k = .add d
  | [], _, h => .inl h
  | k :: ks, l, h => by
    rcases mem_foldl_apply ks _ h with h | ⟨j, hj, hop⟩
    · rcases mem_apply h with h | h
      · exact .inl h
      · exact .inr ⟨k, List.mem_cons_self, h⟩
    · exact .inr ⟨j, List.mem_cons_of_mem _ hj, hop⟩

theorem mem_apply_of_mem (st : DeviceStorage σ) (o : DeviceOp) {d : TrustedDevice}
    {l : List TrustedDevice} (h : d ∈ l) : d ∈ o.apply st l ∨ o.Displaces d := by
  unfold DeviceOp.apply
  split_ifs
  · exact .inl h
  · cases o with
    | add device =>
      by_cases hd : device = d
      · exact .inl (by simp [DeviceOp.modify, hd])
      · by_cases hwid : device.hwid = d.hwid
        · exact .inr ⟨hwid, hd⟩
        · exact .inl (List.mem_append_left _ (List.mem_filter.mpr ⟨h, by simpa using Ne.symm hwid⟩))
    | remove hwids =>
      by_cases hwid : d.hwid ∈ hwids
      · exact .inr hwid
      · exact .inl (List.mem_filter.mpr ⟨h, by simpa using hwid⟩)
    | clear => exact .inr trivial
    | get => exact .inl h

theorem mem_foldl_apply_of_mem {d : TrustedDevice} : ∀ (ks : List Nat) (l : List TrustedDevice),
    d ∈ l → d ∈ ks.foldl (fun l k => (op k).apply st l) l ∨ ∃ k ∈ ks, (op k).Displaces d
  | [], _, h => .inl h
  | k :: ks, l, h => by
    rcases mem_apply_of_mem st (op k) h with h | h
    · rcases mem_foldl_apply_of_mem ks _ h with h | ⟨j, hj, hop⟩
      · exact .inl h
      · exact .inr ⟨j, List.mem_cons_of_mem _ hj, hop⟩
    · exact .inr ⟨k, List.mem_cons_self, h⟩

variable {text : σ} {is order : List Nat}

theorem runsAs (h : Guarded (step st op) (Fresh st) { config2 := text } is) :
    RunsAs st op text is (run (step st op) { config2 := text } is).completed := by
  have hcon := consistent_run text h
  refine ⟨hcon.serial.nodup, hcon.completed, ?_, hcon.serial.value, hcon.stored⟩
  rintro a - b - ⟨front, back, rfl, ha, hb⟩
  have hfront := consistent_run text (guarded_left h)
  rw [run_append]
  refine idxOf_lt_of_prefix (prefix_run completed_step _ back) ((hfront.completed a).mpr ha) ?_
  intro hmem
  rw [(hfront.completed b).mp hmem] at hb
  cases hb

/-- What is in the list after a `clear` was added by an operation that had not returned when
the `clear` was called. -/
theorem RunsAs.cleared (h : RunsAs st op text is order) {c : Nat} (hc : c ∈ order)
    (hop : op c = .clear) {d : TrustedDevice}
    (hd : d ∈ (run (step st op) { config2 := text } is).devices st) :
    ∃ a ∈ order, op a = .add d ∧ ¬ ReturnsBefore st op text is a c := by
  obtain ⟨xs, ys, rfl⟩ := List.append_of_mem hc
  rw [h.result, List.foldl_append, List.foldl_cons] at hd
  have hclear : ∀ l, (op c).apply st l = [] := by
    intro l
    rw [hop, DeviceOp.apply, if_neg]
    · rfl
    · simp [DeviceOp.modify, st.jsonLen_nil, trustedDevicesMaxLen]
  rw [hclear] at hd
  rcases mem_foldl_apply ys _ hd with hd | ⟨a, ha, hadd⟩
  · exact absurd hd List.not_mem_nil
  · have hmem : a ∈ xs ++ c :: ys := by simp [ha]
    refine ⟨a, hmem, hadd, fun hret => ?_⟩
    have hlt := h.realTime a hmem c hc hret
    have hgt := idxOf_lt_of_mem_tail h.nodup ha
    omega

/-- A device that was added is in the list, unless some operation took it out or the list had
become too long when it was to be added. -/
theorem RunsAs.kept (h : RunsAs st op text is order) {a : Nat} (ha : a ∈ order)
    {d : TrustedDevice} (hop : op a = .add d) :
    d ∈ (run (step st op) { config2 := text } is).devices st ∨
    (∃ b ∈ order, (op b).Displaces d) ∨
    Refused st op text order a := by
  obtain ⟨xs, ys, rfl⟩ := List.append_of_mem ha
  rw [h.result, List.foldl_append, List.foldl_cons]
  by_cases hlen : trustedDevicesMaxLen < st.jsonLen ((op a).modify
      (xs.foldl (fun l k => (op k).apply st l) ((st.decrypt text).getD [])))
  · exact .inr (.inr ⟨xs, ys, rfl, hlen⟩)
  · generalize xs.foldl (fun l k => (op k).apply st l) ((st.decrypt text).getD []) = l at hlen ⊢
    have hd : d ∈ (op a).apply st l := by
      rw [DeviceOp.apply, if_neg (by simp [hop] at hlen ⊢; omega), hop]
      simp [DeviceOp.modify]
    rcases mem_foldl_apply_of_mem ys _ hd with hd | ⟨b, hb, hdis⟩
    · exact .inl hd
    · exact .inr (.inl ⟨b, by simp [hb], hdis⟩)

end TrustedDeviceRuns

open TrustedDevices TrustedDeviceRuns History in
theorem trustedDevices_linearizable {σ : Type} (st : DeviceStorage σ) (op : Nat → DeviceOp)
    (text : σ) (is : List Nat) (h : Guarded (step st op) (Fresh st) { config2 := text } is) :
    ∃ order, RunsAs st op text is order ∧
      (∀ c ∈ order, op c = .clear →
        ∀ d ∈ (run (step st op) { config2 := text } is).devices st,
          ∃ a ∈ order, op a = .add d ∧ ¬ ReturnsBefore st op text is a c) ∧
      ∀ a ∈ order, ∀ d, op a = .add d →
        d ∈ (run (step st op) { config2 := text } is).devices st ∨
        (∃ b ∈ order, (op b).Displaces d) ∨ Refused st op text order a := by
  have hruns := runsAs h
  exact ⟨_, hruns, fun c hc hop d => hruns.cleared hc hop, fun a ha d => hruns.kept ha⟩

/-- The length of the JSON text, for names in which nothing is escaped. -/
def plainJsonLen (devices : List TrustedDevice) : Nat :=
  2 + (devices.length - 1) + (devices.map fun d =>
    51 + (d.hwid.map fun b => (Nat.toDigits 10 b.toNat).length).sum + (d.hwid.length - 1) +
    (toString d.time).length + d.id.length + d.name.length + d.platform.length).sum

/-- A storage that keeps the list as it is. -/
def plainStorage : DeviceStorage (Option (List TrustedDevice)) where
  jsonLen := plainJsonLen
  encrypt := some
  decrypt := id
  decrypt_encrypt := fun _ _ => rfl
  jsonLen_nil := rfl

def laptop : TrustedDevice := ⟨[1, 2], 1700000000000, "123456789", "laptop", "Linux"⟩

def phone : TrustedDevice := ⟨[3, 4], 1700000000000, "987654321", "phone", "Android"⟩

/-- Two devices are added, and the list is cleared. -/
def addTwoAndClear : Nat → DeviceOp
  | 0 => .add laptop
  | 1 => .add phone
  | _ => .clear

open TrustedDevices TrustedDeviceRuns History in
theorem trustedDevices_linearizable_two :
    (run (step plainStorage addTwoAndClear) { config2 := none } [0, 0, 2, 0, 1, 1]).devices
      plainStorage = [laptop, phone] ∧
    ∃ order, RunsAs plainStorage addTwoAndClear none [0, 0, 2, 0, 1, 1] order := by
  obtain ⟨order, hruns, -⟩ := trustedDevices_linearizable plainStorage addTwoAndClear none
    [0, 0, 2, 0, 1, 1] (by decide)
  exact ⟨by decide, order, hruns⟩

open TrustedDevices TrustedDeviceRuns History in
/-- Both devices are added to the empty list that both operations read. -/
theorem trustedDevices_lostUpdate :
    (run (step plainStorage addTwoAndClear) { config2 := none } [0, 1, 0, 1, 0, 1]).devices
      plainStorage = [phone] ∧
    ¬ ∃ order, RunsAs plainStorage addTwoAndClear none [0, 1, 0, 1, 0, 1] order := by
  have hdevices : (run (step plainStorage addTwoAndClear) { config2 := none }
      [0, 1, 0, 1, 0, 1]).devices plainStorage = [phone] := by decide
  refine ⟨hdevices, ?_⟩
  rintro ⟨order, hruns⟩
  have hresult := hruns.result
  rw [hdevices] at hresult
  have hmem : ∀ k, k ∈ order ↔ k = 0 ∨ k = 1 := by
    intro k
    rw [hruns.completed]
    constructor
    · intro hdone
      by_contra hno
      have hnot : k ∉ [0, 1, 0, 1, 0, 1] := by
        simp only [List.mem_cons, List.not_mem_nil, or_false]
        omega
      rw [phase_run _ _ hnot] at hdone
      cases hdone
    · rintro (rfl | rfl) <;> decide
  have hperm : order.Perm [0, 1] :=
    (List.perm_ext_iff_of_nodup hruns.nodup (by decide)).mpr (by simpa using hmem)
  obtain ⟨a, b, rfl⟩ := List.length_eq_two.mp hperm.length_eq
  have hne : a ≠ b := by simpa using hruns.nodup
  rcases (hmem a).mp (by simp) with rfl | rfl <;> rcases (hmem b).mp (by simp) with rfl | rfl
  · exact hne rfl
  · exact absurd hresult (by decide)
  · exact absurd hresult (by decide)
  · exact hne rfl

end RustDesk
