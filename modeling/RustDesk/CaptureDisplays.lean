import RustDesk.ServiceSnapshot
import RustDesk.ConnectionState
import Mathlib.Data.List.AList
import Mathlib.Data.Finset.Card

/-!
# The displays a connection captures

A display is captured by the video service of its name. The server keeps its services by
name, those of monitors and of cameras together with all others, and a service knows the
connections that are subscribed to it. A `CaptureDisplays` message changes the subscriptions
of one connection in one loop over all names, which two flags tell what to do with the names
of the message and with the others.
-/

namespace RustDesk.CaptureDisplays

open ServiceSnapshot (Maps maps_onSubscribe maps_onUnsubscribe mem_insertKey notMem_onUnsubscribe)

/-- `service_name_prefix` -/
def namePrefix : VideoSource → List Char
  | .monitor => "monitor".toList
  | .camera => "camera".toList

def getServiceName (source : VideoSource) (idx : Nat) : List Char :=
  namePrefix source ++ Nat.toDigits 10 idx

def isVideoServiceName (name : List Char) : Bool :=
  (namePrefix .monitor).isPrefixOf name || (namePrefix .camera).isPrefixOf name

def nameWindowFocus : List Char := "window_focus".toList

/-! ### One service -/

/-- A service with the invariant of its two maps of subscribers. -/
structure GenericService where
  tmpl : ServiceTmpl Unit
  maps : Maps tmpl

namespace GenericService

variable {s : GenericService} {id k : Int}

def isSubed (s : GenericService) (id : Int) : Bool :=
  s.tmpl.subscribes.contains id || s.tmpl.newSubscribes.contains id

def onSubscribe (s : GenericService) (id : Int) : GenericService :=
  ⟨s.tmpl.onSubscribe id, maps_onSubscribe s.maps id⟩

def onUnsubscribe (s : GenericService) (id : Int) : GenericService :=
  ⟨s.tmpl.onUnsubscribe id, maps_onUnsubscribe s.maps id⟩

/-- `video_service::new` -/
def video : GenericService := ⟨{}, ⟨fun _ h => absurd h List.not_mem_nil, fun _ => rfl⟩⟩

theorem isSubed_iff : s.isSubed id = true ↔
    id ∈ s.tmpl.subscribes ∨ id ∈ s.tmpl.newSubscribes := by
  simp only [isSubed, Bool.or_eq_true, List.contains_iff_mem]

@[simp] theorem isSubed_video : video.isSubed id = false := rfl

theorem isSubed_onSubscribe : (s.onSubscribe id).isSubed k = (decide (k = id) || s.isSubed k) := by
  rw [Bool.eq_iff_iff, Bool.or_eq_true, decide_eq_true_iff, isSubed_iff, isSubed_iff]
  dsimp only [onSubscribe, ServiceTmpl.onSubscribe]
  split_ifs with hmem hneed
  · constructor
    · exact .inr
    · rintro (rfl | h)
      · exact .inl hmem
      · exact h
  · rw [mem_insertKey]
    tauto
  · rw [mem_insertKey]
    tauto

theorem isSubed_onUnsubscribe :
    (s.onUnsubscribe id).isSubed k = (!decide (k = id) && s.isSubed k) := by
  by_cases hk : k = id
  · subst hk
    have hnot := notMem_onUnsubscribe s.maps k
    rw [decide_eq_true rfl, Bool.not_true, Bool.false_and, Bool.eq_false_iff, Ne, isSubed_iff]
    exact not_or.mpr hnot
  · rw [decide_eq_false hk, Bool.not_false, Bool.true_and, Bool.eq_iff_iff, isSubed_iff,
      isSubed_iff]
    dsimp only [onUnsubscribe, ServiceTmpl.onUnsubscribe]
    split_ifs
    · simp [hk]
    · simp [hk]

end GenericService

/-! ### The server -/

structure Server where
  services : AList fun _ : List Char => GenericService := ∅

namespace Server

def contains (srv : Server) (name : List Char) : Bool := (srv.services.lookup name).isSome

def addService (srv : Server) (name : List Char) (s : GenericService) : Server :=
  { srv with services := srv.services.insert name s }

def subscribe (srv : Server) (name : List Char) (id : Int) (sub : Bool) : Server :=
  match srv.services.lookup name with
  | some s =>
    if s.isSubed id = sub then srv
    else
      { srv with
        services := srv.services.insert name
          (if sub then s.onSubscribe id else s.onUnsubscribe id) }
  | none => srv

/-- Whether the connection is subscribed to the service of this name. -/
def isSubed (srv : Server) (name : List Char) (id : Int) : Bool :=
  match srv.services.lookup name with
  | some s => s.isSubed id
  | none => false

def getSubbedDisplaysCount (srv : Server) (id : Int) : Nat :=
  (srv.services.keys.filter fun k => isVideoServiceName k && srv.isSubed k id).length

/-- What the loop of `capture_displays` does with a name, `none` standing for nothing. -/
def decision (displays : List (List Char)) (incl excl : Bool) (name : List Char) : Option Bool :=
  if isVideoServiceName name then
    if displays.contains name then if incl then some true else none
    else if excl then some false else none
  else none

def captureName (displays : List (List Char)) (incl excl : Bool) (id : Int) (srv : Server)
    (name : List Char) : Server :=
  match decision displays incl excl name with
  | some sub => srv.subscribe name id sub
  | none => srv

def captureDisplays (srv : Server) (id : Int) (source : VideoSource) (displays : List Nat)
    (incl excl : Bool) : Server :=
  srv.services.keys.foldl (captureName (displays.map (getServiceName source)) incl excl id) srv

/-- The video services of these displays, created where they do not exist. -/
def addDisplays (srv : Server) (source : VideoSource) (displays : List Nat) : Server :=
  displays.foldl (fun srv d =>
    if srv.contains (getServiceName source d) then srv
    else srv.addService (getServiceName source d) .video) srv

end Server

/-- What `capture_displays` reads of a connection; the server lives as long as there are
connections. -/
structure Conn where
  id : Int
  videoSource : VideoSource := .monitor
  followRemoteWindow : Bool := false
  multiUiSession : Bool := false
  deriving DecidableEq, Repr

namespace Conn

/-- The services of `add` and `set` are created before one of the lists is captured. -/
def captureLists (c : Conn) (add sub set : List Nat) (srv : Server) : Server :=
  let srv := (srv.addDisplays c.videoSource add).addDisplays c.videoSource set
  if !add.isEmpty then srv.captureDisplays c.id c.videoSource add true false
  else if !sub.isEmpty then srv.captureDisplays c.id c.videoSource sub false true
  else srv.captureDisplays c.id c.videoSource set true true

def captureDisplays (c : Conn) (add sub set : List Nat) (srv : Server) : Conn × Server :=
  let srv := c.captureLists add sub set srv
  let c := { c with multiUiSession := 1 < srv.getSubbedDisplaysCount c.id }
  if c.followRemoteWindow then (c, srv.subscribe nameWindowFocus c.id (!c.multiUiSession))
  else (c, srv)

end Conn

/-! ### What one call changes -/

namespace Server

variable {srv : Server} {name n : List Char} {id k : Int} {b : Bool}

theorem contains_iff : srv.contains name = true ↔ name ∈ srv.services := by
  rw [contains, AList.lookup_isSome]

theorem isSubed_of_not_contains (h : srv.contains name = false) : srv.isSubed name id = false := by
  rw [contains, Option.isSome_eq_false_iff, Option.isNone_iff_eq_none] at h
  rw [isSubed, h]

@[simp] theorem contains_subscribe :
    (srv.subscribe name id b).contains n = srv.contains n := by
  unfold subscribe
  cases hl : srv.services.lookup name with
  | none => rfl
  | some s =>
    dsimp only
    by_cases hs : s.isSubed id = b
    · rw [if_pos hs]
    · rw [if_neg hs]
      have hmem : name ∈ srv.services := AList.lookup_isSome.mp (by rw [hl]; rfl)
      rw [Bool.eq_iff_iff, contains_iff, contains_iff, AList.mem_insert]
      constructor
      · rintro (rfl | h)
        · exact hmem
        · exact h
      · exact .inr

/-- Only one connection at one service is changed, and it becomes as told if there is such
a service. -/
theorem isSubed_subscribe : (srv.subscribe name id b).isSubed n k =
    if n = name ∧ k = id then srv.contains name && b else srv.isSubed n k := by
  unfold subscribe
  cases hl : srv.services.lookup name with
  | none =>
    have hno : srv.contains name = false := by rw [contains, hl]; rfl
    dsimp only
    split_ifs with h
    · rw [h.1, isSubed_of_not_contains hno, hno, Bool.false_and]
    · rfl
  | some s =>
    have hyes : srv.contains name = true := by rw [contains, hl]; rfl
    have hold : srv.isSubed name k = s.isSubed k := by rw [isSubed, hl]
    rw [hyes, Bool.true_and]
    dsimp only
    by_cases hs : s.isSubed id = b
    · rw [if_pos hs]
      split_ifs with h
      · rw [h.1, hold, h.2, hs]
      · rfl
    · rw [if_neg hs]
      by_cases hn : n = name
      · subst hn
        have hnew : ∀ s', isSubed ⟨srv.services.insert n s'⟩ n k = s'.isSubed k := by
          intro s'
          rw [isSubed, AList.lookup_insert]
        rw [hnew, hold]
        by_cases hk : k = id
        · subst hk
          cases b
          · simp [GenericService.isSubed_onUnsubscribe]
          · simp [GenericService.isSubed_onSubscribe]
        · cases b
          · simp [GenericService.isSubed_onUnsubscribe, hk]
          · simp [GenericService.isSubed_onSubscribe, hk]
      · rw [if_neg (show ¬(n = name ∧ k = id) from fun h => hn h.1)]
        simp only [isSubed]
        rw [AList.lookup_insert_ne hn]

section Loop

variable {displays : List (List Char)} {incl excl : Bool}

@[simp] theorem contains_captureName :
    (captureName displays incl excl id srv name).contains n = srv.contains n := by
  unfold captureName
  split
  · exact contains_subscribe
  · rfl

theorem isSubed_captureName : (captureName displays incl excl id srv name).isSubed n k =
    if n = name ∧ k = id then
      ((decision displays incl excl n).map (srv.contains n && ·)).getD (srv.isSubed n k)
    else srv.isSubed n k := by
  unfold captureName
  split_ifs with h
  · obtain ⟨rfl, rfl⟩ := h
    cases decision displays incl excl n with
    | none => rfl
    | some sub =>
      dsimp only [Option.map_some, Option.getD_some]
      rw [isSubed_subscribe, if_pos ⟨rfl, rfl⟩]
  · split
    · rw [isSubed_subscribe, if_neg h]
    · rfl

@[simp] theorem contains_foldl_captureName (keys : List (List Char)) (srv : Server) :
    (keys.foldl (captureName displays incl excl id) srv).contains n = srv.contains n := by
  induction keys generalizing srv with
  | nil => rfl
  | cons name keys ih => rw [List.foldl_cons, ih, contains_captureName]

/-- The loop does with every name what is decided for it, as a name that comes twice would
be treated alike both times. -/
theorem isSubed_foldl_captureName (keys : List (List Char)) (srv : Server) :
    (keys.foldl (captureName displays incl excl id) srv).isSubed n k =
      if n ∈ keys ∧ k = id then
        ((decision displays incl excl n).map (srv.contains n && ·)).getD (srv.isSubed n k)
      else srv.isSubed n k := by
  induction keys generalizing srv with
  | nil => simp
  | cons name keys ih =>
    rw [List.foldl_cons, ih, contains_captureName, isSubed_captureName]
    by_cases hk : k = id
    · by_cases hn : n = name
      · by_cases hmem : n ∈ keys
        · cases decision displays incl excl n <;> simp [hk, hn]
        · rw [if_neg fun h => hmem h.1, if_pos ⟨hn, hk⟩, if_pos ⟨List.mem_cons.mpr (.inl hn), hk⟩]
      · simp [hk, hn]
    · simp [hk]

end Loop

theorem isSubed_captureDisplays (srv : Server) (id : Int) (source : VideoSource)
    (displays : List Nat) (incl excl : Bool) :
    (srv.captureDisplays id source displays incl excl).isSubed n k =
      if k = id then
        ((decision (displays.map (getServiceName source)) incl excl n).map
          (srv.contains n && ·)).getD (srv.isSubed n k)
      else srv.isSubed n k := by
  rw [captureDisplays, isSubed_foldl_captureName]
  by_cases hn : n ∈ srv.services.keys
  · simp only [hn, true_and]
  · -- there is no service of this name, before and after
    have hno : srv.contains n = false := by
      rw [Bool.eq_false_iff, Ne, contains_iff, AList.mem_keys]
      exact hn
    rw [if_neg fun h => hn h.1, isSubed_of_not_contains hno, hno]
    cases decision (displays.map (getServiceName source)) incl excl n <;> simp

theorem isSubed_addDisplays (source : VideoSource) (displays : List Nat) (srv : Server) :
    (srv.addDisplays source displays).isSubed n k = srv.isSubed n k := by
  unfold addDisplays
  induction displays generalizing srv with
  | nil => rfl
  | cons d displays ih =>
    rw [List.foldl_cons, ih]
    split_ifs with hc
    · rfl
    · by_cases hn : n = getServiceName source d
      · subst hn
        rw [isSubed_of_not_contains (Bool.eq_false_iff.mpr hc), isSubed, addService,
          AList.lookup_insert]
        rfl
      · simp only [isSubed, addService]
        rw [AList.lookup_insert_ne hn]

theorem contains_addDisplays (source : VideoSource) (displays : List Nat) (srv : Server) :
    (srv.addDisplays source displays).contains n = true ↔
      srv.contains n = true ∨ ∃ d ∈ displays, n = getServiceName source d := by
  unfold addDisplays
  induction displays generalizing srv with
  | nil => simp
  | cons d displays ih =>
    rw [List.foldl_cons, ih, List.exists_mem_cons_iff, ← or_assoc]
    refine or_congr_left ?_
    split_ifs with hc
    · constructor
      · exact .inl
      · rintro (h | rfl)
        · exact h
        · exact hc
    · rw [contains_iff, addService, AList.mem_insert, contains_iff]
      exact or_comm

end Server

/-! ### The names -/

theorem getServiceName_inj {source : VideoSource} {d e : Nat}
    (h : getServiceName source d = getServiceName source e) : d = e := by
  have hdigits : Nat.toDigits 10 d = Nat.toDigits 10 e := List.append_cancel_left h
  have hof := congrArg (Nat.ofDigitChars 10 · 0) hdigits
  simpa only [Nat.ofDigitChars_ten_toDigits] using hof

theorem getServiceName_source {source other : VideoSource} {d e : Nat}
    (h : getServiceName source d = getServiceName other e) : source = other := by
  have hfirst : ∀ source d, (getServiceName source d).head? = (namePrefix source).head? := by
    intro source d
    cases source <;> rfl
  have heads := congrArg List.head? h
  rw [hfirst, hfirst] at heads
  cases source <;> cases other <;> first | rfl | exact absurd heads (by decide)

theorem isVideoServiceName_getServiceName (source : VideoSource) (d : Nat) :
    isVideoServiceName (getServiceName source d) = true := by
  have hpre : (namePrefix source).isPrefixOf (getServiceName source d) = true :=
    List.isPrefixOf_iff_prefix.mpr (List.prefix_append _ _)
  cases source with
  | monitor => rw [isVideoServiceName, hpre, Bool.true_or]
  | camera => rw [isVideoServiceName, hpre, Bool.or_true]

theorem isVideoServiceName_windowFocus : isVideoServiceName nameWindowFocus = false := by
  decide

theorem mem_map_getServiceName {source : VideoSource} {displays : List Nat} {d : Nat} :
    getServiceName source d ∈ displays.map (getServiceName source) ↔ d ∈ displays := by
  rw [List.mem_map]
  constructor
  · rintro ⟨e, he, heq⟩
    rwa [← getServiceName_inj heq]
  · exact fun h => ⟨d, h, rfl⟩

/-! ### One message -/

section Message

variable {c : Conn} {srv : Server} {add sub set : List Nat} {name : List Char} {k : Int}

/-- A message with exactly one list that is not empty. -/
def OneList (add sub set : List Nat) : Prop :=
  (add ≠ [] ∧ sub = [] ∧ set = []) ∨ (add = [] ∧ sub ≠ [] ∧ set = []) ∨
    (add = [] ∧ sub = [] ∧ set ≠ [])

instance : Decidable (OneList add sub set) := inferInstanceAs (Decidable (_ ∨ _))

/-- What the connection and the server are like after a message, with `add` and `set` on the
displays of the connection's own source. -/
structure Captured (c : Conn) (add set : List Nat) (srv : Server) (r : Conn × Server) : Prop where
  added : add ≠ [] → ∀ d, r.2.isSubed (getServiceName c.videoSource d) c.id = true ↔
    srv.isSubed (getServiceName c.videoSource d) c.id = true ∨ d ∈ add
  replaced : set ≠ [] → ∀ d, r.2.isSubed (getServiceName c.videoSource d) c.id = true ↔ d ∈ set
  otherSource : ∀ source ≠ c.videoSource, ∀ d,
    r.2.isSubed (getServiceName source d) c.id = true →
      srv.isSubed (getServiceName source d) c.id = true
  otherConnections : ∀ k ≠ c.id, ∀ name, r.2.isSubed name k = srv.isSubed name k
  multi : r.1.multiUiSession = true ↔ ∃ n₁ n₂, n₁ ≠ n₂ ∧
    (isVideoServiceName n₁ = true ∧ r.2.isSubed n₁ c.id = true) ∧
    (isVideoServiceName n₂ = true ∧ r.2.isSubed n₂ c.id = true)

/-- Besides, `sub` takes its displays away, and nothing but video services is changed. -/
structure SetOperations (c : Conn) (add sub set : List Nat) (srv : Server) (r : Conn × Server) :
    Prop extends Captured c add set srv r where
  removed : sub ≠ [] → ∀ d, r.2.isSubed (getServiceName c.videoSource d) c.id = true ↔
    srv.isSubed (getServiceName c.videoSource d) c.id = true ∧ d ∉ sub
  nonVideo : ∀ name, isVideoServiceName name = false →
    r.2.isSubed name c.id = srv.isSubed name c.id

theorem decision_of_not_video {displays : List (List Char)} {incl excl : Bool}
    (h : isVideoServiceName name = false) : Server.decision displays incl excl name = none := by
  rw [Server.decision, h]
  exact if_neg Bool.false_ne_true

theorem decision_getServiceName (source : VideoSource) (displays : List Nat) (incl excl : Bool)
    (d : Nat) :
    Server.decision (displays.map (getServiceName source)) incl excl (getServiceName source d) =
      if d ∈ displays then if incl then some true else none
      else if excl then some false else none := by
  rw [Server.decision, if_pos (isVideoServiceName_getServiceName source d)]
  simp only [List.contains_iff_mem, mem_map_getServiceName]

theorem decision_otherSource {source other : VideoSource} (h : other ≠ source)
    (displays : List Nat) (incl excl : Bool) (d : Nat) :
    Server.decision (displays.map (getServiceName source)) incl excl (getServiceName other d) =
      if excl then some false else none := by
  have hno : getServiceName other d ∉ displays.map (getServiceName source) := by
    intro hmem
    obtain ⟨e, -, heq⟩ := List.mem_map.mp hmem
    exact h (getServiceName_source heq).symm
  rw [Server.decision, if_pos (isVideoServiceName_getServiceName other d), if_neg]
  simpa only [List.contains_iff_mem] using hno

namespace Conn

/-- Whichever list is captured, the loop runs over a server on which the same connections are
subscribed as before. -/
theorem captureLists_cases (P : Server → Prop)
    (h : ∀ srv' displays incl excl, (∀ n k, srv'.isSubed n k = srv.isSubed n k) →
      P (Server.captureDisplays srv' c.id c.videoSource displays incl excl)) :
    P (c.captureLists add sub set srv) := by
  have hsame : ∀ n k, ((srv.addDisplays c.videoSource add).addDisplays c.videoSource set).isSubed
      n k = srv.isSubed n k := by
    intro n k
    rw [Server.isSubed_addDisplays, Server.isSubed_addDisplays]
  unfold captureLists
  dsimp only
  split_ifs
  · exact h _ _ _ _ hsame
  · exact h _ _ _ _ hsame
  · exact h _ _ _ _ hsame

theorem captureLists_otherConnections (hk : k ≠ c.id) :
    (c.captureLists add sub set srv).isSubed name k = srv.isSubed name k := by
  apply captureLists_cases fun s => s.isSubed name k = srv.isSubed name k
  intro srv' displays incl excl hsame
  rw [Server.isSubed_captureDisplays, if_neg hk, hsame]

theorem captureLists_nonVideo (hname : isVideoServiceName name = false) :
    (c.captureLists add sub set srv).isSubed name k = srv.isSubed name k := by
  apply captureLists_cases fun s => s.isSubed name k = srv.isSubed name k
  intro srv' displays incl excl hsame
  rw [Server.isSubed_captureDisplays, decision_of_not_video hname, hsame]
  simp

theorem captureLists_otherSource {other : VideoSource} (hother : other ≠ c.videoSource) (d : Nat)
    (h : (c.captureLists add sub set srv).isSubed (getServiceName other d) c.id = true) :
    srv.isSubed (getServiceName other d) c.id = true := by
  revert h
  apply captureLists_cases fun s => s.isSubed (getServiceName other d) c.id = true →
    srv.isSubed (getServiceName other d) c.id = true
  intro srv' displays incl excl hsame h
  rw [Server.isSubed_captureDisplays, if_pos rfl, decision_otherSource hother, hsame] at h
  cases excl with
  | false => simpa using h
  | true => simp at h

theorem captureLists_added (hadd : add ≠ []) (d : Nat) :
    (c.captureLists add sub set srv).isSubed (getServiceName c.videoSource d) c.id = true ↔
      srv.isSubed (getServiceName c.videoSource d) c.id = true ∨ d ∈ add := by
  unfold captureLists
  dsimp only
  rw [if_pos (by simpa using hadd), Server.isSubed_captureDisplays, if_pos rfl,
    decision_getServiceName, Server.isSubed_addDisplays, Server.isSubed_addDisplays]
  by_cases hd : d ∈ add
  · simp only [hd, if_true, Option.map_some, Option.getD_some, Bool.and_true, or_true, iff_true]
    rw [Server.contains_addDisplays, Server.contains_addDisplays]
    exact .inl (.inr ⟨d, hd, rfl⟩)
  · simp [hd]

theorem captureLists_replaced (hadd : add = []) (hsub : sub = []) (d : Nat) :
    (c.captureLists add sub set srv).isSubed (getServiceName c.videoSource d) c.id = true ↔
      d ∈ set := by
  subst hadd hsub
  unfold captureLists
  dsimp only
  rw [if_neg (by simp), if_neg (by simp), Server.isSubed_captureDisplays, if_pos rfl,
    decision_getServiceName]
  by_cases hd : d ∈ set
  · simp only [hd, if_true, Option.map_some, Option.getD_some, Bool.and_true, iff_true]
    rw [Server.contains_addDisplays]
    exact .inr ⟨d, hd, rfl⟩
  · simp [hd]

/-- After the lists, only the subscription to the window focus can still change. -/
theorem captureDisplays_isSubed (c : Conn) (add sub set : List Nat) (srv : Server)
    (name : List Char) (k : Int) :
    (c.captureDisplays add sub set srv).2.isSubed name k =
      if c.followRemoteWindow = true ∧ name = nameWindowFocus ∧ k = c.id then
        (c.captureLists add sub set srv).contains nameWindowFocus &&
          !(c.captureDisplays add sub set srv).1.multiUiSession
      else (c.captureLists add sub set srv).isSubed name k := by
  unfold captureDisplays
  dsimp only
  by_cases hf : c.followRemoteWindow = true
  · simp only [if_pos hf]
    rw [Server.isSubed_subscribe]
    simp only [hf, true_and]
  · simp only [if_neg hf]
    rw [if_neg fun h => hf h.1]

theorem captureDisplays_isSubed_of_ne (h : name ≠ nameWindowFocus) :
    (c.captureDisplays add sub set srv).2.isSubed name k =
      (c.captureLists add sub set srv).isSubed name k := by
  rw [captureDisplays_isSubed, if_neg fun hw => h hw.2.1]

theorem captureDisplays_multiUiSession (c : Conn) (add sub set : List Nat) (srv : Server) :
    (c.captureDisplays add sub set srv).1.multiUiSession =
      decide (1 < (c.captureLists add sub set srv).getSubbedDisplaysCount c.id) := by
  unfold captureDisplays
  dsimp only
  split_ifs <;> rfl

end Conn

theorem ne_windowFocus_of_video (h : isVideoServiceName name = true) : name ≠ nameWindowFocus := by
  rintro rfl
  rw [isVideoServiceName_windowFocus] at h
  exact Bool.false_ne_true h

/-- The keys are different names, so that a count above one is two of them. -/
theorem one_lt_getSubbedDisplaysCount (srv : Server) (id : Int) :
    1 < srv.getSubbedDisplaysCount id ↔ ∃ n₁ n₂, n₁ ≠ n₂ ∧
      (isVideoServiceName n₁ = true ∧ srv.isSubed n₁ id = true) ∧
      (isVideoServiceName n₂ = true ∧ srv.isSubed n₂ id = true) := by
  have hnodup : (srv.services.keys.filter fun k =>
      isVideoServiceName k && srv.isSubed k id).Nodup := srv.services.keys_nodup.filter _
  have hmem : ∀ n, n ∈ (srv.services.keys.filter fun k =>
      isVideoServiceName k && srv.isSubed k id) ↔
        isVideoServiceName n = true ∧ srv.isSubed n id = true := by
    intro n
    rw [List.mem_filter, Bool.and_eq_true, and_iff_right_iff_imp]
    rintro ⟨-, hsub⟩
    by_contra hno
    have hc : srv.contains n = false := by
      rw [Bool.eq_false_iff, Ne, Server.contains_iff, AList.mem_keys]
      exact hno
    rw [Server.isSubed_of_not_contains hc] at hsub
    exact Bool.false_ne_true hsub
  unfold Server.getSubbedDisplaysCount
  rw [← List.toFinset_card_of_nodup hnodup, Finset.one_lt_card]
  simp only [List.mem_toFinset, hmem]
  constructor
  · rintro ⟨a, ha, b, hb, hab⟩
    exact ⟨a, b, hab, ha, hb⟩
  · rintro ⟨a, b, hab, ha, hb⟩
    exact ⟨a, ha, b, hb, hab⟩

theorem contains_captureLists_windowFocus (c : Conn) (add sub set : List Nat) (srv : Server) :
    (c.captureLists add sub set srv).contains nameWindowFocus = srv.contains nameWindowFocus := by
  have hadd : ∀ (displays : List Nat) (srv : Server),
      (srv.addDisplays c.videoSource displays).contains nameWindowFocus =
        srv.contains nameWindowFocus := by
    intro displays srv
    rw [Bool.eq_iff_iff, Server.contains_addDisplays]
    constructor
    · rintro (h | ⟨d, -, hd⟩)
      · exact h
      · exact absurd hd.symm (ne_windowFocus_of_video (isVideoServiceName_getServiceName _ d))
    · exact .inl
  unfold Conn.captureLists
  dsimp only
  split_ifs <;> rw [Server.captureDisplays, Server.contains_foldl_captureName, hadd, hadd]

theorem captured_captureDisplays (c : Conn) (srv : Server) (h : OneList add sub set) :
    Captured c add set srv (c.captureDisplays add sub set srv) := by
  have hvideo : ∀ source d, (c.captureDisplays add sub set srv).2.isSubed
      (getServiceName source d) c.id =
        (c.captureLists add sub set srv).isSubed (getServiceName source d) c.id := fun source d =>
    Conn.captureDisplays_isSubed_of_ne
      (ne_windowFocus_of_video (isVideoServiceName_getServiceName source d))
  refine ⟨fun hadd d => ?_, fun hset d => ?_, fun other hother d hd => ?_, fun k hk name => ?_, ?_⟩
  · rw [hvideo]
    exact Conn.captureLists_added hadd d
  · rcases h with ⟨-, -, hnil⟩ | ⟨-, -, hnil⟩ | ⟨hadd, hsub, -⟩
    · exact absurd hnil hset
    · exact absurd hnil hset
    · rw [hvideo]
      exact Conn.captureLists_replaced hadd hsub d
  · rw [hvideo] at hd
    exact Conn.captureLists_otherSource hother d hd
  · rw [Conn.captureDisplays_isSubed, if_neg fun hw => hk hw.2.2]
    exact Conn.captureLists_otherConnections hk
  · rw [Conn.captureDisplays_multiUiSession, decide_eq_true_iff, one_lt_getSubbedDisplaysCount]
    have hsame : ∀ n, (isVideoServiceName n = true ∧
        (c.captureDisplays add sub set srv).2.isSubed n c.id = true) ↔
          (isVideoServiceName n = true ∧ (c.captureLists add sub set srv).isSubed n c.id = true) := by
      intro n
      refine and_congr_right fun hn => ?_
      rw [Conn.captureDisplays_isSubed_of_ne (ne_windowFocus_of_video hn)]
    simp only [hsame]

/-- A connection that follows the remote window gets its focus while it shows one display,
and this is the only service without video that a message changes. -/
theorem capture_displays_sets (c : Conn) (srv : Server) (add sub set : List Nat)
    (h : OneList add sub set) :
    Captured c add set srv (c.captureDisplays add sub set srv) ∧
    (∀ name, isVideoServiceName name = false → name ≠ nameWindowFocus →
      (c.captureDisplays add sub set srv).2.isSubed name c.id = srv.isSubed name c.id) ∧
    (c.captureDisplays add sub set srv).2.isSubed nameWindowFocus c.id =
      if c.followRemoteWindow && srv.contains nameWindowFocus then
        !(c.captureDisplays add sub set srv).1.multiUiSession
      else srv.isSubed nameWindowFocus c.id := by
  refine ⟨captured_captureDisplays c srv h, fun name hname hne => ?_, ?_⟩
  · rw [Conn.captureDisplays_isSubed_of_ne hne]
    exact Conn.captureLists_nonVideo hname
  · have hold : (c.captureLists add sub set srv).isSubed nameWindowFocus c.id =
        srv.isSubed nameWindowFocus c.id := Conn.captureLists_nonVideo isVideoServiceName_windowFocus
    rw [Conn.captureDisplays_isSubed, contains_captureLists_windowFocus, hold]
    by_cases hf : c.followRemoteWindow = true
    · rw [if_pos ⟨hf, rfl, rfl⟩, hf, Bool.true_and]
      cases hc : srv.contains nameWindowFocus with
      | true => rw [Bool.true_and, if_pos rfl]
      | false => rw [Bool.false_and, if_neg Bool.false_ne_true, Server.isSubed_of_not_contains hc]
    · rw [if_neg fun hw => hf hw.1, Bool.eq_false_iff.mpr hf, Bool.false_and,
        if_neg Bool.false_ne_true]

/-- Two monitors and the window focus, all subscribed by connection 7. -/
def twoMonitors : Server :=
  [getServiceName .monitor 0, getServiceName .monitor 1, nameWindowFocus].foldl
    (fun srv name => (srv.addService name .video).subscribe name 7 true) {}

theorem capture_displays_sets_third : OneList [2] [] [] ∧
    ∀ d, ((Conn.captureDisplays ⟨7, .monitor, true, true⟩ [2] [] [] twoMonitors).2.isSubed
        (getServiceName .monitor d) 7 = true ↔
      twoMonitors.isSubed (getServiceName .monitor d) 7 = true ∨ d ∈ [2]) :=
  have hone : OneList [2] [] [] := by decide
  ⟨hone, (capture_displays_sets ⟨7, .monitor, true, true⟩ twoMonitors [2] [] [] hone).1.added
    (by decide)⟩

/-- With both monitors set, the window focus is no longer followed; and `sub` leaves the
display that it names and takes away the other. -/
theorem capture_displays_not_set_operations :
    (OneList [] [] [0, 1] ∧ ¬SetOperations ⟨7, .monitor, true, false⟩ [] [] [0, 1] twoMonitors
      (Conn.captureDisplays ⟨7, .monitor, true, false⟩ [] [] [0, 1] twoMonitors)) ∧
    (OneList [] [0] [] ∧ ¬SetOperations ⟨7, .monitor, false, true⟩ [] [0] [] twoMonitors
      (Conn.captureDisplays ⟨7, .monitor, false, true⟩ [] [0] [] twoMonitors)) := by
  refine ⟨⟨by decide, fun h => ?_⟩, ⟨by decide, fun h => ?_⟩⟩
  · have hfocus := h.nonVideo nameWindowFocus (by decide)
    revert hfocus
    decide
  · have hfirst := h.removed (by decide) 0
    revert hfirst
    decide

end Message

end RustDesk.CaptureDisplays
