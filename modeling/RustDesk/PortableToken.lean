import RustDesk.BytesCodec
import RustDesk.History
import Mathlib.Data.List.Perm.Basic
import Mathlib.Data.List.TakeWhile

/-!
# The token of the portable service

On Windows the portable service is a process of its own, which connects to the main process. It is let in
when it presents the token that it has found in the memory they share. Every start makes a new token, and it
is good for one connection; if the answer to it can not be sent, it is put back.

A step is what is done while the locks of the token and of the memory are held. Starts can overlap: one
that has no process yet is taken for a stale one by the next.
-/

namespace RustDesk.PortableToken

open History (run Guarded Throughout)

/-! ### Tokens -/

def ipcTokenLen : Nat := 64

/-- A digit of `{:02x}`. -/
def hexDigit (n : Nat) : UInt8 := UInt8.ofNat (if n < 10 then 48 + n else 87 + n)

/-- What the system gives as random bytes is written in hexadecimal. -/
def generateOneTimeIpcToken (random : Vector UInt8 32) : Bytes :=
  random.toList.flatMap fun b => [hexDigit (b.toNat / 16), hexDigit (b.toNat % 16)]

def isHexDigit (b : UInt8) : Bool := (48 ≤ b && b ≤ 57) || (97 ≤ b && b ≤ 102)

def isValidIpcToken (token : Bytes) : Bool := token.length = ipcTokenLen && token.all isHexDigit

def constantTimeIpcTokenEq (expected candidate : Bytes) : Bool :=
  if expected.length ≠ ipcTokenLen ∨ candidate.length ≠ ipcTokenLen then false
  else (expected.zip candidate).foldl (fun diff p => diff ||| (p.1 ^^^ p.2)) 0 = 0

/-! ### The memory -/

/-- `area` are the bytes that the memory has for the token. -/
def readIpcToken (area : Bytes) : Option Bytes :=
  let token := area.takeWhile (· ≠ 0)
  if token = [] then none else if isValidIpcToken token then some token else none

def writeIpcToken (token : Bytes) : Option Bytes := if isValidIpcToken token then some token else none

def clearedArea : Bytes := List.replicate ipcTokenLen 0

/-! ### The main process -/

/-- A call of `start_portable_service` that has not set its token. -/
inductive Start
  | begun
  | created (token : Bytes)
  deriving DecidableEq, Repr

def Start.token : Start → Option Bytes
  | .begun => none
  | .created token => some token

/-- The `handshake` of the server is `some none` when it rejects. The tokens that were `generated` or
`accepted`, and the names that were used, come last first. -/
structure Runtime (ν : Type) where
  token : Option Bytes := none
  shmem : Option Bytes := none
  name : Option ν := none
  starts : List Start := []
  handshake : Option (Option (Bytes × Option ν)) := none
  generated : List Bytes := []
  names : List ν := []
  accepted : List Bytes := []

inductive Event (ν : Type)
  | begins
  | create (i : Nat) (random : Vector UInt8 32) (name : ν)
  | setToken (i : Nat)
  | fails (i : Nat)
  | clear
  | authToken (candidate : Bytes)
  | answered (sent : Bool)
  deriving DecidableEq, Repr

namespace Runtime

section

variable {ν : Type} [DecidableEq ν] (s : Runtime ν)

def clearRuntimeShmemState : Runtime ν := { s with token := none, shmem := none, name := none }

def consumeRuntimeIpcTokenIfMatch (candidate : Bytes) : Runtime ν × Option (Option ν) :=
  match s.token with
  | none => (s, none)
  | some expected =>
    if constantTimeIpcTokenEq expected candidate then
      ({ s with token := none, shmem := s.shmem.map fun _ => clearedArea }, some s.name)
    else (s, none)

/-- The token is gone if it is there, and can not be. -/
def dropToken (token : Bytes) : Runtime ν := if s.token = some token then { s with token := none } else s

/-- A newer token stays, and a newer memory is left alone. -/
def restoreRuntimeIpcToken (token : Bytes) (expectedName : Option ν) : Runtime ν :=
  if s.token ≠ none ∧ s.token ≠ some token then s
  else if s.name ≠ expectedName then s.dropToken token
  else
    match s.shmem.bind fun _ => writeIpcToken token with
    | some area => { s with token := some token, shmem := some area }
    | none => s.dropToken token

/-- The memory of a start, with its token. -/
def create (i : Nat) (random : Vector UInt8 32) (name : ν) : Runtime ν :=
  let token := generateOneTimeIpcToken random
  match writeIpcToken token with
  | some area =>
    { s with shmem := some area, name := some name, starts := s.starts.set i (.created token),
             generated := token :: s.generated, names := name :: s.names }
  | none => { s.clearRuntimeShmemState with starts := s.starts.eraseIdx i }

def answer (sent : Bool) : Runtime ν :=
  match s.handshake with
  | none => s
  | some none => { s with handshake := none }
  | some (some (token, name)) =>
    if sent then { s with handshake := none, accepted := token :: s.accepted }
    else { s with handshake := none }.restoreRuntimeIpcToken token name

def step : Event ν → Runtime ν
  | .begins => { s.clearRuntimeShmemState with starts := .begun :: s.starts }
  | .create i random name => if s.starts[i]? = some .begun then s.create i random name else s
  | .setToken i =>
    match s.starts[i]? with
    | some (.created token) => { s with token := some token, starts := s.starts.eraseIdx i }
    | _ => s
  | .fails i => if s.starts[i]? = some .begun then { s with starts := s.starts.eraseIdx i } else s
  | .clear => s.clearRuntimeShmemState
  | .authToken candidate =>
    if s.handshake = none then
      let (s, matched) := s.consumeRuntimeIpcTokenIfMatch candidate
      { s with handshake := some (matched.map fun name => (candidate, name)) }
    else s
  | .answered sent => s.answer sent

/-- Random tokens and names are new. -/
def Fresh : Event ν → Prop
  | .create _ random name => generateOneTimeIpcToken random ∉ s.generated ∧ name ∉ s.names
  | _ => True

instance : ∀ e, Decidable (s.Fresh e)
  | .create .. => inferInstanceAs (Decidable (_ ∧ _))
  | .begins | .setToken _ | .fails _ | .clear | .authToken _ | .answered _ => .isTrue trivial

/-- Between its beginning and its token, a start is alone, and nothing drops the memory. -/
def Alone : Event ν → Prop
  | .begins | .clear => s.starts = []
  | _ => True

instance : ∀ e, Decidable (s.Alone e)
  | .begins | .clear => inferInstanceAs (Decidable (_ = _))
  | .create .. | .setToken _ | .fails _ | .authToken _ | .answered _ => .isTrue trivial

/-- A token that lets a connection in has been made by a start, and lets no other in. -/
def OnceOnly : Prop := (∀ t ∈ s.accepted, t ∈ s.generated) ∧ s.accepted.Nodup

/-- What the memory holds is accepted, and nothing else. -/
def Agrees : Prop :=
  s.starts = [] → s.handshake = none → ∀ candidate, (s.step (.authToken candidate)).handshake =
    some (if s.shmem.bind readIpcToken = some candidate then some (candidate, s.name) else none)

end

end Runtime

/-! ### Facts about tokens -/

theorem isHexDigit_hexDigit : ∀ n < 16, isHexDigit (hexDigit n) = true := by decide

theorem isValid_generate (random : Vector UInt8 32) : isValidIpcToken (generateOneTimeIpcToken random) = true := by
  have hlength : (generateOneTimeIpcToken random).length = ipcTokenLen := by
    simp [generateOneTimeIpcToken, ipcTokenLen, List.length_flatMap]
  have hdigits : (generateOneTimeIpcToken random).all isHexDigit = true := by
    rw [List.all_eq_true]
    intro d hd
    obtain ⟨b, -, hd⟩ := List.mem_flatMap.mp hd
    have hb : b.toNat < 256 := b.toNat_lt
    rcases List.mem_pair.mp hd with rfl | rfl
    · exact isHexDigit_hexDigit _ (by omega)
    · exact isHexDigit_hexDigit _ (by omega)
  unfold isValidIpcToken
  rw [hlength, hdigits]
  rfl

theorem length_of_valid {t : Bytes} (h : isValidIpcToken t = true) : t.length = ipcTokenLen := by
  unfold isValidIpcToken at h
  rw [Bool.and_eq_true, decide_eq_true_eq] at h
  exact h.1

theorem writeIpcToken_valid {t : Bytes} (h : isValidIpcToken t = true) : writeIpcToken t = some t := if_pos h

theorem readIpcToken_valid {t : Bytes} (h : isValidIpcToken t = true) : readIpcToken t = some t := by
  have hdigits : ∀ b ∈ t, isHexDigit b = true := by
    unfold isValidIpcToken at h
    rw [Bool.and_eq_true] at h
    exact List.all_eq_true.mp h.2
  have hwhole : t.takeWhile (· ≠ 0) = t := by
    refine List.takeWhile_eq_self_iff.mpr fun b hb => ?_
    have hdigit := hdigits b hb
    rw [decide_eq_true_eq]
    rintro rfl
    exact Bool.false_ne_true hdigit
  have hne : t ≠ [] := by
    rintro rfl
    exact absurd (length_of_valid h) (by decide)
  unfold readIpcToken
  dsimp only
  rw [hwhole, if_neg hne, if_pos h]

theorem readIpcToken_cleared : readIpcToken clearedArea = none := by decide

theorem foldl_xor_eq_zero (a : Bytes) : ∀ (b : Bytes) (diff : UInt8), a.length = b.length →
    ((a.zip b).foldl (fun diff p => diff ||| (p.1 ^^^ p.2)) diff = 0 ↔ diff = 0 ∧ b = a) := by
  induction a with
  | nil =>
    intro b diff hlength
    rw [List.length_eq_zero_iff.mp hlength.symm]
    simp
  | cons x a ih =>
    intro b diff hlength
    cases b with
    | nil => cases hlength
    | cons y b =>
      rw [List.zip_cons_cons, List.foldl_cons, ih b _ (Nat.succ.inj hlength), UInt8.or_eq_zero_iff,
        UInt8.xor_eq_zero_iff, List.cons.injEq]
      constructor
      · rintro ⟨⟨hdiff, hxy⟩, hb⟩
        exact ⟨hdiff, hxy.symm, hb⟩
      · rintro ⟨hdiff, hyx, hb⟩
        exact ⟨⟨hdiff, hyx.symm⟩, hb⟩

/-- All bytes are compared, and all have to agree. -/
theorem constantTimeIpcTokenEq_iff {expected candidate : Bytes} (h : expected.length = ipcTokenLen) :
    constantTimeIpcTokenEq expected candidate = true ↔ candidate = expected := by
  unfold constantTimeIpcTokenEq
  by_cases hlength : candidate.length = ipcTokenLen
  · rw [if_neg (by simp [h, hlength]), decide_eq_true_eq,
      foldl_xor_eq_zero expected candidate 0 (h.trans hlength.symm)]
    exact and_iff_right rfl
  · rw [if_pos (Or.inr hlength)]
    refine iff_of_false Bool.false_ne_true ?_
    rintro rfl
    exact hlength h

/-! ### Every token once -/

namespace Runtime

variable {ν : Type} {s : Runtime ν}

/-- A start has made the token, and no connection was let in with it; it is not about to be set. -/
def Unused (s : Runtime ν) (t : Bytes) : Prop := t ∈ s.generated ∧ t ∉ s.accepted ∧ .created t ∉ s.starts

structure Single (s : Runtime ν) : Prop where
  valid : ∀ t ∈ s.generated, isValidIpcToken t = true
  token : ∀ t, s.token = some t → s.Unused t
  handshake : ∀ t name, s.handshake = some (some (t, name)) → s.token ≠ some t ∧ s.Unused t
  created : ∀ t, .created t ∈ s.starts → t ∈ s.generated ∧ t ∉ s.accepted
  starts : (s.starts.filterMap Start.token).Nodup
  onceOnly : s.OnceOnly

theorem dropToken_of_ne [DecidableEq ν] {t : Bytes} (h : s.token ≠ some t) : s.dropToken t = s := if_neg h

/-- A token is put back only if there is none, and the memory is still that of its start. -/
theorem restore_cases [DecidableEq ν] {t : Bytes} {expected : Option ν} (ht : s.token ≠ some t)
    (hvalid : isValidIpcToken t = true) :
    s.restoreRuntimeIpcToken t expected = s ∨
      s.token = none ∧ s.name = expected ∧
        s.restoreRuntimeIpcToken t expected = { s with token := some t, shmem := some t } := by
  unfold restoreRuntimeIpcToken
  by_cases hnone : s.token = none
  · rw [if_neg fun h => h.1 hnone]
    by_cases hname : s.name = expected
    · rw [if_neg (not_not.mpr hname)]
      cases hshmem : s.shmem with
      | none => exact Or.inl (dropToken_of_ne ht)
      | some area =>
        rw [Option.bind_some, writeIpcToken_valid hvalid]
        exact Or.inr ⟨hnone, hname, rfl⟩
    · rw [if_pos hname]
      exact Or.inl (dropToken_of_ne ht)
  · rw [if_pos ⟨hnone, ht⟩]
    exact Or.inl rfl

/-- A token is consumed only by what is equal to it. -/
theorem consume_cases (hvalid : ∀ t, s.token = some t → isValidIpcToken t = true) (candidate : Bytes) :
    s.consumeRuntimeIpcTokenIfMatch candidate = (s, none) ∨
      s.token = some candidate ∧ s.consumeRuntimeIpcTokenIfMatch candidate =
        ({ s with token := none, shmem := s.shmem.map fun _ => clearedArea }, some s.name) := by
  unfold consumeRuntimeIpcTokenIfMatch
  cases htoken : s.token with
  | none => exact Or.inl rfl
  | some expected =>
    dsimp only
    by_cases heq : constantTimeIpcTokenEq expected candidate = true
    · rw [if_pos heq]
      have hcandidate := (constantTimeIpcTokenEq_iff (length_of_valid (hvalid _ htoken))).mp heq
      exact Or.inr ⟨congrArg some hcandidate.symm, rfl⟩
    · rw [if_neg heq]
      exact Or.inl rfl

theorem consume_self {t : Bytes} (htoken : s.token = some t) (hvalid : isValidIpcToken t = true) :
    s.consumeRuntimeIpcTokenIfMatch t =
      ({ s with token := none, shmem := s.shmem.map fun _ => clearedArea }, some s.name) := by
  unfold consumeRuntimeIpcTokenIfMatch
  rw [htoken]
  exact if_pos ((constantTimeIpcTokenEq_iff (length_of_valid hvalid)).mpr rfl)

theorem create_eq (s : Runtime ν) (i : Nat) (random : Vector UInt8 32) (name : ν) :
    s.create i random name =
      { s with shmem := some (generateOneTimeIpcToken random), name := some name,
               starts := s.starts.set i (.created (generateOneTimeIpcToken random)),
               generated := generateOneTimeIpcToken random :: s.generated, names := name :: s.names } := by
  unfold create
  dsimp only
  rw [writeIpcToken_valid (isValid_generate random)]

theorem Unused.of_subset {t : Bytes} (h : s.Unused t) {starts : List Start} (hstarts : starts ⊆ s.starts) :
    Unused { s with starts } t :=
  ⟨h.1, h.2.1, fun hmem => h.2.2 (hstarts hmem)⟩

namespace Single

theorem clear (h : s.Single) : s.clearRuntimeShmemState.Single where
  valid := h.valid
  token _ ht := by cases ht
  handshake t name hs := ⟨nofun, (h.handshake t name hs).2⟩
  created := h.created
  starts := h.starts
  onceOnly := h.onceOnly

theorem begins (h : s.Single) (htoken : s.token = none) : Single { s with starts := .begun :: s.starts } := by
  have hmem : ∀ t, .created t ∈ Start.begun :: s.starts → .created t ∈ s.starts := fun t ht =>
    (List.mem_cons.mp ht).resolve_left nofun
  refine ⟨h.valid, fun t ht => ?_, fun t name hs => ?_, fun t ht => h.created t (hmem t ht), h.starts, h.onceOnly⟩
  · cases htoken.symm.trans ht
  · obtain ⟨hne, hunused⟩ := h.handshake t name hs
    exact ⟨hne, hunused.1, hunused.2.1, fun ht => hunused.2.2 (hmem t ht)⟩

theorem dropStart (h : s.Single) (i : Nat) : Single { s with starts := s.starts.eraseIdx i } := by
  have hsub : s.starts.eraseIdx i ⊆ s.starts := List.eraseIdx_subset
  refine ⟨h.valid, fun t ht => (h.token t ht).of_subset hsub, fun t name hs => ?_,
    fun t ht => h.created t (hsub ht), ?_, h.onceOnly⟩
  · obtain ⟨hne, hunused⟩ := h.handshake t name hs
    exact ⟨hne, hunused.of_subset hsub⟩
  · exact h.starts.sublist ((List.eraseIdx_sublist _ _).filterMap _)

theorem create (h : s.Single) {i : Nat} (hi : s.starts[i]? = some .begun) {random : Vector UInt8 32} {name : ν}
    (hfresh : generateOneTimeIpcToken random ∉ s.generated) : (s.create i random name).Single := by
  have hvalid := isValid_generate random
  rw [create_eq]
  generalize generateOneTimeIpcToken random = token at hfresh hvalid
  obtain ⟨hlt, -⟩ := List.getElem?_eq_some_iff.mp hi
  have hmem : ∀ t, .created t ∈ s.starts.set i (.created token) → .created t ∈ s.starts ∨ t = token :=
    fun t ht => (List.mem_or_eq_of_mem_set ht).imp_right Start.created.inj
  have hnew : token ∉ s.accepted := fun ht => hfresh (h.onceOnly.1 token ht)
  have hunused : ∀ t, s.Unused t →
      Unused { s with starts := s.starts.set i (.created token), generated := token :: s.generated } t := by
    intro t ht
    refine ⟨List.mem_cons_of_mem _ ht.1, ht.2.1, fun hstart => ?_⟩
    rcases hmem t hstart with hstart | rfl
    · exact ht.2.2 hstart
    · exact hfresh ht.1
  refine ⟨fun t ht => ?_, fun t ht => hunused t (h.token t ht), fun t name' hs => ?_, fun t ht => ?_, ?_,
    ⟨fun t ht => List.mem_cons_of_mem _ (h.onceOnly.1 t ht), h.onceOnly.2⟩⟩
  · rcases List.mem_cons.mp ht with rfl | ht
    · exact hvalid
    · exact h.valid t ht
  · obtain ⟨hne, ht⟩ := h.handshake t name' hs
    exact ⟨hne, hunused t ht⟩
  · rcases hmem t ht with ht | rfl
    · exact ⟨List.mem_cons_of_mem _ (h.created t ht).1, (h.created t ht).2⟩
    · exact ⟨List.mem_cons_self, hnew⟩
  · have hperm := (List.set_perm_cons_eraseIdx hlt (.created token)).filterMap Start.token
    refine hperm.nodup_iff.mpr (List.nodup_cons.mpr ⟨fun ht => hfresh ?_, ?_⟩)
    · obtain ⟨start, hstart, htoken⟩ := List.mem_filterMap.mp ht
      cases start with
      | begun => cases htoken
      | created t =>
        cases htoken
        exact (h.created token (List.eraseIdx_subset hstart)).1
    · exact h.starts.sublist ((List.eraseIdx_sublist _ _).filterMap _)

theorem setToken (h : s.Single) {i : Nat} {token : Bytes} (hi : s.starts[i]? = some (.created token)) :
    Single { s with token := some token, starts := s.starts.eraseIdx i } := by
  obtain ⟨hlt, hstart⟩ := List.getElem?_eq_some_iff.mp hi
  have hmem : .created token ∈ s.starts := List.mem_of_getElem? hi
  have hsub : s.starts.eraseIdx i ⊆ s.starts := List.eraseIdx_subset
  have hperm := (List.getElem_cons_eraseIdx_perm hlt).filterMap Start.token
  rw [hstart] at hperm
  have hnodup := List.nodup_cons.mp (hperm.nodup_iff.mpr h.starts)
  refine ⟨h.valid, fun t ht => ?_, fun t name hs => ?_, fun t ht => h.created t (hsub ht), hnodup.2, h.onceOnly⟩
  · cases ht
    obtain ⟨hgenerated, haccepted⟩ := h.created token hmem
    exact ⟨hgenerated, haccepted, fun ht => hnodup.1 (List.mem_filterMap.mpr ⟨_, ht, rfl⟩)⟩
  · obtain ⟨-, hunused⟩ := h.handshake t name hs
    refine ⟨fun heq => hunused.2.2 ?_, hunused.of_subset hsub⟩
    cases heq
    exact hmem

theorem authToken [DecidableEq ν] (h : s.Single) (candidate : Bytes) : (s.step (.authToken candidate)).Single := by
  dsimp only [step]
  split
  · rcases consume_cases (fun t ht => h.valid t (h.token t ht).1) candidate with heq | ⟨htoken, heq⟩
    · rw [heq]
      exact ⟨h.valid, h.token, fun t name hs => (by cases hs), h.created, h.starts, h.onceOnly⟩
    · rw [heq]
      refine ⟨h.valid, fun t ht => (by cases ht), fun t name hs => ?_, h.created, h.starts, h.onceOnly⟩
      cases hs
      exact ⟨nofun, h.token candidate htoken⟩
  · exact h

theorem answer [DecidableEq ν] (h : s.Single) (sent : Bool) : (s.answer sent).Single := by
  have hidle : Single { s with handshake := none } :=
    ⟨h.valid, h.token, fun t name hs => (by cases hs), h.created, h.starts, h.onceOnly⟩
  unfold Runtime.answer
  split
  · exact h
  · exact hidle
  · rename_i token name hhandshake
    obtain ⟨hne, hunused⟩ := h.handshake token name hhandshake
    cases sent with
    | true =>
      refine ⟨h.valid, fun t ht => ?_, fun t name hs => (by cases hs), fun t ht => ?_, h.starts, ?_, ?_⟩
      · obtain ⟨hgenerated, haccepted, hstarts⟩ := h.token t ht
        refine ⟨hgenerated, fun hmem => ?_, hstarts⟩
        rcases List.mem_cons.mp hmem with rfl | hmem
        · exact hne ht
        · exact haccepted hmem
      · obtain ⟨hgenerated, haccepted⟩ := h.created t ht
        refine ⟨hgenerated, fun hmem => ?_⟩
        rcases List.mem_cons.mp hmem with rfl | hmem
        · exact hunused.2.2 ht
        · exact haccepted hmem
      · intro t ht
        rcases List.mem_cons.mp ht with rfl | ht
        · exact hunused.1
        · exact h.onceOnly.1 t ht
      · exact List.nodup_cons.mpr ⟨hunused.2.1, h.onceOnly.2⟩
    | false =>
      have hidleToken : ({ s with handshake := none } : Runtime ν).token ≠ some token := hne
      change (restoreRuntimeIpcToken { s with handshake := none } token name).Single
      rcases restore_cases hidleToken (h.valid token hunused.1) with heq | ⟨-, -, heq⟩
      · rw [heq]
        exact hidle
      · rw [heq]
        refine ⟨h.valid, fun t ht => ?_, fun t name hs => (by cases hs), h.created, h.starts, h.onceOnly⟩
        cases ht
        exact hunused

theorem step [DecidableEq ν] (h : s.Single) {e : Event ν} (hfresh : s.Fresh e) : (s.step e).Single := by
  cases e with
  | begins => exact h.clear.begins rfl
  | create i random name =>
    dsimp only [Runtime.step]
    split
    · rename_i hi
      exact h.create hi hfresh.1
    · exact h
  | setToken i =>
    dsimp only [Runtime.step]
    split
    · rename_i token hi
      exact h.setToken hi
    · exact h
  | fails i =>
    dsimp only [Runtime.step]
    split
    · exact h.dropStart i
    · exact h
  | clear => exact h.clear
  | authToken candidate => exact h.authToken candidate
  | answered sent => exact h.answer sent

theorem start : ({} : Runtime ν).Single where
  valid _ ht := absurd ht List.not_mem_nil
  token _ ht := by cases ht
  handshake _ _ hs := by cases hs
  created _ ht := absurd ht List.not_mem_nil
  starts := List.nodup_nil
  onceOnly := ⟨fun _ ht => absurd ht List.not_mem_nil, List.nodup_nil⟩

end Single

/-! ### The memory and the token -/

/-- What the memory holds at each stage of the one start there may be. -/
def InPhase (s : Runtime ν) : List Start → Prop
  | [] => s.shmem.bind readIpcToken = s.token
  | [.begun] => s.token = none ∧ s.shmem = none ∧ s.name = none
  | [.created t] => s.token = none ∧ s.shmem = some t ∧ (∃ m ∈ s.names, s.name = some m) ∧
      ∀ t' name, s.handshake = some (some (t', name)) → name ≠ s.name
  | _ => False

structure Joined (s : Runtime ν) : Prop where
  single : s.Single
  phase : s.InPhase s.starts
  named : s.token ≠ none → ∃ m ∈ s.names, s.name = some m
  handshake : ∀ t name, s.handshake = some (some (t, name)) → ∃ m ∈ s.names, name = some m

theorem InPhase.cases {starts : List Start} (h : s.InPhase starts) :
    starts = [] ∨ starts = [.begun] ∨ ∃ t, starts = [.created t] := by
  match starts, h with
  | [], _ => exact Or.inl rfl
  | [.begun], _ => exact Or.inr (Or.inl rfl)
  | [.created t], _ => exact Or.inr (Or.inr ⟨t, rfl⟩)

theorem InPhase.begun_at {starts : List Start} (h : s.InPhase starts) {i : Nat} (hi : starts[i]? = some .begun) :
    starts = [.begun] ∧ i = 0 := by
  obtain ⟨hlt, hstart⟩ := List.getElem?_eq_some_iff.mp hi
  rcases h.cases with rfl | rfl | ⟨t, rfl⟩
  · cases hlt
  · exact ⟨rfl, Nat.lt_one_iff.mp hlt⟩
  · obtain rfl := Nat.lt_one_iff.mp hlt
    cases hstart

theorem InPhase.created_at {starts : List Start} (h : s.InPhase starts) {i : Nat} {token : Bytes}
    (hi : starts[i]? = some (.created token)) : starts = [.created token] ∧ i = 0 := by
  obtain ⟨hlt, hstart⟩ := List.getElem?_eq_some_iff.mp hi
  rcases h.cases with rfl | rfl | ⟨t, rfl⟩
  · cases hlt
  · obtain rfl := Nat.lt_one_iff.mp hlt
    cases hstart
  · obtain rfl := Nat.lt_one_iff.mp hlt
    cases hstart
    exact ⟨rfl, rfl⟩

namespace Joined

theorem create (h : s.Joined) {i : Nat} (hi : s.starts[i]? = some .begun) {random : Vector UInt8 32} {name : ν}
    (hfresh : generateOneTimeIpcToken random ∉ s.generated) (hname : name ∉ s.names) :
    (s.create i random name).Joined := by
  have hsingle : (s.create i random name).Single := h.single.create hi hfresh
  have hphase := h.phase
  obtain ⟨hstarts, rfl⟩ := hphase.begun_at hi
  rw [hstarts] at hphase
  rw [create_eq] at hsingle ⊢
  have hnames : ∀ t' name', s.handshake = some (some (t', name')) → name' ≠ some name := by
    rintro t' name' hs rfl
    obtain ⟨m, hm, heq⟩ := h.handshake t' _ hs
    cases heq
    exact hname hm
  refine ⟨hsingle, ?_, fun htoken => absurd hphase.1 htoken, fun t' name' hs => ?_⟩
  · rw [hstarts]
    exact ⟨hphase.1, rfl, ⟨name, List.mem_cons_self, rfl⟩, hnames⟩
  · obtain ⟨m, hm, heq⟩ := h.handshake t' name' hs
    exact ⟨m, List.mem_cons_of_mem _ hm, heq⟩

theorem setToken (h : s.Joined) {i : Nat} {token : Bytes} (hi : s.starts[i]? = some (.created token)) :
    Joined { s with token := some token, starts := s.starts.eraseIdx i } := by
  have hsingle := h.single.setToken hi
  have hvalid := h.single.valid token (h.single.created token (List.mem_of_getElem? hi)).1
  have hphase := h.phase
  obtain ⟨hstarts, rfl⟩ := hphase.created_at hi
  rw [hstarts] at hphase
  obtain ⟨-, hshmem, hname, -⟩ := hphase
  refine ⟨hsingle, ?_, fun _ => hname, h.handshake⟩
  rw [hstarts]
  change s.shmem.bind readIpcToken = some token
  rw [hshmem, Option.bind_some, readIpcToken_valid hvalid]

theorem fails (h : s.Joined) {i : Nat} (hi : s.starts[i]? = some .begun) :
    Joined { s with starts := s.starts.eraseIdx i } := by
  have hsingle := h.single.dropStart i
  have hphase := h.phase
  obtain ⟨hstarts, rfl⟩ := hphase.begun_at hi
  rw [hstarts] at hphase
  obtain ⟨htoken, hshmem, -⟩ := hphase
  refine ⟨hsingle, ?_, h.named, h.handshake⟩
  rw [hstarts]
  change s.shmem.bind readIpcToken = s.token
  rw [hshmem, htoken]
  rfl

/-- A handshake that has no token leaves the rest as it is. -/
theorem setHandshake (h : s.Joined) {handshake : Option (Option (Bytes × Option ν))}
    (hnone : ∀ p, handshake ≠ some (some p)) : Joined { s with handshake } := by
  have hsingle : Single { s with handshake } :=
    ⟨h.single.valid, h.single.token, fun t name hs => absurd hs (hnone _), h.single.created, h.single.starts,
      h.single.onceOnly⟩
  refine ⟨hsingle, ?_, h.named, fun t name hs => absurd hs (hnone _)⟩
  have hphase := h.phase
  change InPhase { s with handshake } s.starts
  rcases hphase.cases with hstarts | hstarts | ⟨t, hstarts⟩
  · rw [hstarts] at hphase ⊢
    exact hphase
  · rw [hstarts] at hphase ⊢
    exact hphase
  · rw [hstarts] at hphase ⊢
    exact ⟨hphase.1, hphase.2.1, hphase.2.2.1, fun t' name hs => absurd hs (hnone _)⟩

/-- There is a token only when no start is under way. -/
theorem starts_of_token (h : s.Joined) (htoken : s.token ≠ none) : s.starts = [] := by
  have hphase := h.phase
  rcases hphase.cases with hstarts | hstarts | ⟨t, hstarts⟩
  · exact hstarts
  · rw [hstarts] at hphase
    exact absurd hphase.1 htoken
  · rw [hstarts] at hphase
    exact absurd hphase.1 htoken

theorem authToken [DecidableEq ν] (h : s.Joined) (candidate : Bytes) : (s.step (.authToken candidate)).Joined := by
  have hsingle := h.single.authToken candidate
  have hvalid : ∀ t, s.token = some t → isValidIpcToken t = true := fun t ht =>
    h.single.valid t (h.single.token t ht).1
  dsimp only [step] at hsingle ⊢
  by_cases hidle : s.handshake = none
  · rw [if_pos hidle] at hsingle ⊢
    rcases consume_cases hvalid candidate with heq | ⟨htoken, heq⟩
    · rw [heq]
      exact h.setHandshake nofun
    · rw [heq] at hsingle ⊢
      have htoken' : s.token ≠ none := by
        rw [htoken]
        exact nofun
      refine ⟨hsingle, ?_, fun hnone => absurd rfl hnone, fun t name hs => ?_⟩
      · change InPhase _ s.starts
        rw [h.starts_of_token htoken']
        change (s.shmem.map fun _ => clearedArea).bind readIpcToken = none
        cases s.shmem with
        | none => rfl
        | some area => exact readIpcToken_cleared
      · cases hs
        exact h.named htoken'
  · rw [if_neg hidle]
    exact h

/-- A token is not put back into the memory of another start. -/
theorem restore [DecidableEq ν] (h : s.Joined) {token : Bytes} {name : Option ν}
    (hhandshake : s.handshake = some (some (token, name))) :
    (restoreRuntimeIpcToken { s with handshake := none } token name).Joined := by
  have hidle : Joined { s with handshake := none } := h.setHandshake nofun
  have hsingle := h.single.answer false
  obtain ⟨hne, hunused⟩ := h.single.handshake token name hhandshake
  have hvalid := h.single.valid token hunused.1
  have hidleToken : ({ s with handshake := none } : Runtime ν).token ≠ some token := hne
  obtain ⟨m, hm, hname⟩ := h.handshake token name hhandshake
  unfold Runtime.answer at hsingle
  rw [hhandshake] at hsingle
  change (restoreRuntimeIpcToken { s with handshake := none } token name).Single at hsingle
  rcases restore_cases hidleToken hvalid with heq | ⟨-, hcurrent, heq⟩
  · rw [heq]
    exact hidle
  · rw [heq] at hsingle ⊢
    change s.name = name at hcurrent
    have hphase := h.phase
    refine ⟨hsingle, ?_, fun _ => ⟨m, hm, hcurrent.trans hname⟩, fun t name hs => (by cases hs)⟩
    change InPhase _ s.starts
    rcases hphase.cases with hstarts | hstarts | ⟨t, hstarts⟩
    · rw [hstarts]
      exact readIpcToken_valid hvalid
    · rw [hstarts] at hphase
      rw [hphase.2.2, hname] at hcurrent
      cases hcurrent
    · rw [hstarts] at hphase
      exact absurd hcurrent.symm (hphase.2.2.2 token name hhandshake)

theorem answer [DecidableEq ν] (h : s.Joined) (sent : Bool) : (s.answer sent).Joined := by
  have hsingle := h.single.answer sent
  unfold Runtime.answer at hsingle ⊢
  split
  · exact h
  · exact h.setHandshake nofun
  · rename_i token name hhandshake
    rw [hhandshake] at hsingle
    cases sent with
    | true =>
      have hidle : Joined { s with handshake := none } := h.setHandshake nofun
      exact ⟨hsingle, hidle.phase, hidle.named, hidle.handshake⟩
    | false => exact h.restore hhandshake

theorem clear (h : s.Joined) (hstarts : s.starts = []) : s.clearRuntimeShmemState.Joined := by
  refine ⟨h.single.clear, ?_, fun htoken => absurd rfl htoken, h.handshake⟩
  change InPhase _ s.starts
  rw [hstarts]
  rfl

theorem begins (h : s.Joined) (hstarts : s.starts = []) :
    Joined { s.clearRuntimeShmemState with starts := .begun :: s.starts } := by
  refine ⟨h.single.clear.begins rfl, ?_, fun htoken => absurd rfl htoken, h.handshake⟩
  rw [hstarts]
  exact ⟨rfl, rfl, rfl⟩

theorem step [DecidableEq ν] (h : s.Joined) {e : Event ν} (he : s.Fresh e ∧ s.Alone e) : (s.step e).Joined := by
  obtain ⟨hfresh, halone⟩ := he
  cases e with
  | begins => exact h.begins halone
  | create i random name =>
    dsimp only [Runtime.step]
    split
    · rename_i hi
      exact h.create hi hfresh.1 hfresh.2
    · exact h
  | setToken i =>
    dsimp only [Runtime.step]
    split
    · rename_i token hi
      exact h.setToken hi
    · exact h
  | fails i =>
    dsimp only [Runtime.step]
    split
    · rename_i hi
      exact h.fails hi
    · exact h
  | clear => exact h.clear halone
  | authToken candidate => exact h.authToken candidate
  | answered sent => exact h.answer sent

theorem agrees [DecidableEq ν] (h : s.Joined) : s.Agrees := by
  intro hstarts hidle candidate
  have hvalid : ∀ t, s.token = some t → isValidIpcToken t = true := fun t ht =>
    h.single.valid t (h.single.token t ht).1
  have hphase := h.phase
  rw [hstarts] at hphase
  change s.shmem.bind readIpcToken = s.token at hphase
  dsimp only [Runtime.step]
  rw [if_pos hidle, hphase]
  by_cases htoken : s.token = some candidate
  · rw [if_pos htoken, consume_self htoken (hvalid candidate htoken)]
    rfl
  · rw [if_neg htoken]
    rcases consume_cases hvalid candidate with heq | ⟨heq, -⟩
    · rw [heq]
      rfl
    · exact absurd heq htoken

theorem start : ({} : Runtime ν).Joined where
  single := Single.start
  phase := rfl
  named h := absurd rfl h
  handshake _ _ hs := by cases hs

end Joined

end Runtime

/-- The answer to the first connection is lost, and a second one comes; then the service starts again. -/
def lostAnswer : List (Event Nat) :=
  let token := generateOneTimeIpcToken (Vector.replicate 32 0)
  let token' := generateOneTimeIpcToken (Vector.replicate 32 1)
  [.begins, .create 0 (Vector.replicate 32 0) 5, .setToken 0, .authToken token, .answered false,
   .authToken token, .answered true, .authToken token, .answered true, .begins,
   .create 0 (Vector.replicate 32 1) 6, .setToken 0, .authToken token, .answered true, .authToken token',
   .answered true]

/-- However starts, handshakes and answers that fail are interleaved, a token lets in one connection. -/
theorem ipc_token_once {ν : Type} [DecidableEq ν] {es : List (Event ν)}
    (h : Guarded Runtime.step Runtime.Fresh {} es) : Throughout Runtime.step Runtime.OnceOnly {} es :=
  History.throughout_imp (fun _ hs => hs.onceOnly)
    (History.throughout_of_guarded (fun _ _ hs he => hs.step he) Runtime.Single.start h)

theorem ipc_token_once_lostAnswer :
    (run Runtime.step {} lostAnswer).accepted =
        [generateOneTimeIpcToken (Vector.replicate 32 1), generateOneTimeIpcToken (Vector.replicate 32 0)]
      ∧ Throughout Runtime.step Runtime.OnceOnly {} lostAnswer :=
  ⟨by decide, ipc_token_once (by decide)⟩

/-- A process that reads the token in the memory is let in with it, and with nothing else, as long as starts do
not overlap. -/
theorem ipc_token_agrees {ν : Type} [DecidableEq ν] {es : List (Event ν)}
    (h : Guarded Runtime.step (fun s e => s.Fresh e ∧ s.Alone e) {} es) :
    Throughout Runtime.step Runtime.Agrees {} es :=
  History.throughout_imp (fun _ hs => hs.agrees)
    (History.throughout_of_guarded (fun _ _ hs he => hs.step he) Runtime.Joined.start h)

theorem ipc_token_agrees_lostAnswer : Throughout Runtime.step Runtime.Agrees {} lostAnswer :=
  ipc_token_agrees (by decide)

/-- Of two starts that overlap, the first sets its token when the memory is that of the second. -/
example :
    let s : Runtime Nat := run Runtime.step {} [.begins, .create 0 (Vector.replicate 32 0) 5, .begins,
      .create 0 (Vector.replicate 32 1) 6, .setToken 0, .setToken 0]
    s.shmem.bind readIpcToken = some (generateOneTimeIpcToken (Vector.replicate 32 1)) ∧
      s.token = some (generateOneTimeIpcToken (Vector.replicate 32 0)) := by decide

end RustDesk.PortableToken
