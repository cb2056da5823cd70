import RustDesk.CompressedPayloads
import RustDesk.History
import RustDesk.Utf8Text

/-!
# Clipboards that follow each other

A machine that controls others, or is controlled, sends what its user copies to all of them, and puts what it
gets into its own clipboard. There that has a mark, so that it is not sent on and does not come back.

`Session` is any network of machines and connections that are established, with the clipboard enabled. Every
message is applied by a thread of its own, so they may be applied in any order. The clipboard of the system
gives back what was set. After a login the client sends its clipboard without looking for the mark.
-/

namespace RustDesk.ClipboardSync

open History (run Guarded Throughout)
open Utf8Text

/-! ### Contents -/

inductive ClipboardData
  | text (s : List Char)
  | html (s : List Char)
  | rtf (s : List Char)
  | rgba (width height : Nat) (bytes : Bytes)
  | png (bytes : Bytes)
  | svg (s : List Char)
  | fileUrl (urls : List (List Char))
  | special (name : List Char) (data : Bytes)
  deriving DecidableEq, Repr

/-- The formats of the protocol; another value of the field is `none`. -/
inductive ClipboardFormat
  | text
  | rtf
  | html
  | imageRgba
  | imagePng
  | imageSvg
  | special
  deriving DecidableEq, Repr

structure Clipboard where
  compress : Bool
  content : Bytes
  width : BitVec 32 := 0
  height : BitVec 32 := 0
  format : Option ClipboardFormat
  specialName : List Char := []
  deriving DecidableEq, Repr

/-- `"dyn.com.rustdesk.owner"` -/
def ownerFormat : List Char :=
  ['d', 'y', 'n', '.', 'c', 'o', 'm', '.', 'r', 'u', 's', 't', 'd', 'e', 's', 'k', '.', 'o', 'w', 'n', 'e', 'r']

section

variable (z : Zstd)

def plainToProto (s : List Char) (format : ClipboardFormat) : Clipboard where
  compress := (z.pack (text s)).2
  content := (z.pack (text s)).1
  format := some format

/-- What does not get shorter is sent as its name. -/
def specialToProto (name : List Char) (d : Bytes) : Clipboard :=
  if (z.compress d).length < d.length then
    { compress := true, content := z.compress d, format := some .special, specialName := name }
  else { compress := false, content := text name, format := some .special, specialName := name }

def clipboardDataToProto : ClipboardData → Option Clipboard
  | .text s => some (plainToProto z s .text)
  | .rtf s => some (plainToProto z s .rtf)
  | .html s => some (plainToProto z s .html)
  | .rgba width height bytes =>
    some { compress := (z.pack bytes).2, content := (z.pack bytes).1, width := BitVec.ofNat 32 width,
           height := BitVec.ofNat 32 height, format := some .imageRgba }
  | .png bytes => some { compress := false, content := bytes, format := some .imagePng }
  | .svg s => some (plainToProto z s .imageSvg)
  | .special name d => some (specialToProto z name d)
  | .fileUrl _ => none

def createMultiClipboards (data : List ClipboardData) : List Clipboard :=
  data.filterMap (clipboardDataToProto z)

/-- `String::from_utf8` -/
def decodeText (bytes : Bytes) : Option (List Char) := bytes.toByteArray.utf8Decode?.map Array.toList

def fromClipboard (clipboard : Clipboard) : Option ClipboardData :=
  let data := z.unpack (clipboard.content, clipboard.compress)
  match clipboard.format with
  | some .text => (decodeText data).map .text
  | some .rtf => (decodeText data).map .rtf
  | some .html => (decodeText data).map .html
  | some .imageRgba =>
    some (.rgba (clipboard.width.signExtend 64).toNat (clipboard.height.signExtend 64).toNat data)
  | some .imagePng => some (.png data)
  | some .imageSvg => some (.svg ((decodeText data).getD []))
  | some .special => some (.special clipboard.specialName data)
  | none => none

def fromMultiClipboards (clipboards : List Clipboard) : List ClipboardData :=
  clipboards.filterMap (fromClipboard z)

/-- What is sent arrives: the compressor does not fail, the sides of a picture fit, and a special format gets
shorter, or is its name. -/
def Faithful : ClipboardData → Prop
  | .text s | .rtf s | .html s | .svg s => text s ≠ [] → z.encode (text s) ≠ none
  | .rgba width height bytes => width < 2 ^ 31 ∧ height < 2 ^ 31 ∧ (bytes ≠ [] → z.encode bytes ≠ none)
  | .png _ => True
  | .special name d => if (z.compress d).length < d.length then z.encode d ≠ none else d = text name
  | .fileUrl _ => False

instance : ∀ d, Decidable (Faithful z d)
  | .text _ | .rtf _ | .html _ | .svg _ => inferInstanceAs (Decidable (_ → _))
  | .rgba .. => inferInstanceAs (Decidable (_ ∧ _))
  | .special _ _ => inferInstanceAs (Decidable (ite _ _ _))
  | .png _ => .isTrue trivial
  | .fileUrl _ => .isFalse id

end

theorem decodeText_text (s : List Char) : decodeText (text s) = some s := by
  unfold decodeText
  rw [show (text s).toByteArray = s.utf8Encode from rfl, List.utf8Decode?_utf8Encode]
  rfl

theorem unpack_pack {z : Zstd} (hz : z.Sound) {data : Bytes} (h : data ≠ [] → z.encode data ≠ none) :
    z.unpack (z.pack data) = data := by
  by_cases hdata : data = []
  · rw [hdata]
    rfl
  · exact (Zstd.unpack_pack_iff hz hdata).mpr (h hdata)

theorem signExtend_ofNat {n : Nat} (h : n < 2 ^ 31) : ((BitVec.ofNat 32 n).signExtend 64).toNat = n := by
  have hmsb : (BitVec.ofNat 32 n).msb = false := by
    rw [BitVec.msb_eq_false_iff_two_mul_lt, BitVec.toNat_ofNat]
    omega
  rw [BitVec.signExtend_eq_setWidth_of_msb_false hmsb, BitVec.toNat_setWidth, BitVec.toNat_ofNat]
  omega

/-- A side that comes back as it was is not negative as a signed number of 32 bits. -/
theorem lt_of_signExtend {n : Nat} (hn : n < 2 ^ 63) (h : ((BitVec.ofNat 32 n).signExtend 64).toNat = n) :
    n < 2 ^ 31 := by
  rw [BitVec.toNat_signExtend] at h
  by_cases hmsb : (BitVec.ofNat 32 n).msb = true
  · rw [if_pos hmsb] at h
    omega
  · rw [Bool.not_eq_true, BitVec.msb_eq_false_iff_two_mul_lt] at hmsb
    rw [BitVec.msb_eq_false_iff_two_mul_lt.mpr hmsb, if_neg Bool.false_ne_true, BitVec.toNat_setWidth] at h
    omega

theorem fromClipboard_toProto {z : Zstd} (hz : z.Sound) {d : ClipboardData} (h : Faithful z d) :
    (clipboardDataToProto z d).bind (fromClipboard z) = some d := by
  cases d with
  | text s =>
    simp only [clipboardDataToProto, Option.bind_some, fromClipboard, plainToProto, unpack_pack hz h,
      decodeText_text, Option.map_some]
  | html s =>
    simp only [clipboardDataToProto, Option.bind_some, fromClipboard, plainToProto, unpack_pack hz h,
      decodeText_text, Option.map_some]
  | rtf s =>
    simp only [clipboardDataToProto, Option.bind_some, fromClipboard, plainToProto, unpack_pack hz h,
      decodeText_text, Option.map_some]
  | rgba width height bytes =>
    obtain ⟨hwidth, hheight, hbytes⟩ := h
    simp only [clipboardDataToProto, Option.bind_some, fromClipboard, unpack_pack hz hbytes,
      signExtend_ofNat hwidth, signExtend_ofNat hheight]
  | png bytes => rfl
  | svg s =>
    simp only [clipboardDataToProto, Option.bind_some, fromClipboard, plainToProto, unpack_pack hz h,
      decodeText_text, Option.getD_some]
  | fileUrl urls => exact absurd h id
  | special name d =>
    unfold Faithful at h
    dsimp only at h
    by_cases hshort : (z.compress d).length < d.length
    · rw [if_pos hshort] at h
      simp only [clipboardDataToProto, Option.bind_some, specialToProto, if_pos hshort, fromClipboard,
        Zstd.unpack, if_true, hz.decompress_compress h]
    · rw [if_neg hshort] at h
      simp only [clipboardDataToProto, Option.bind_some, specialToProto, if_neg hshort, fromClipboard,
        Zstd.unpack, Bool.false_eq_true, if_false]
      rw [h]

/-- Nothing is left of what could not be compressed. -/
theorem unpack_pack_failed {z : Zstd} (hz : z.Sound) {data : Bytes} (hdata : data ≠ [])
    (h : z.encode data = none) : z.unpack (z.pack data) = [] := by
  have hshort : (z.compress data).length < data.length := by
    rw [Zstd.compress_failed h]
    exact List.length_pos_iff.mpr hdata
  rw [Zstd.pack, if_pos hshort, Zstd.unpack, if_pos rfl, Zstd.compress_failed h, hz.decompress_nil]

theorem encode_of_unpack {z : Zstd} (hz : z.Sound) {s : List Char}
    (h : decodeText (z.unpack (z.pack (text s))) = some s) (hs : text s ≠ []) : z.encode (text s) ≠ none := by
  intro hfailed
  rw [unpack_pack_failed hz hs hfailed] at h
  have hnone : s = [] := (Option.some.inj h).symm
  rw [hnone] at hs
  exact hs rfl

/-- A special format that does not get shorter arrives as its name. -/
theorem fromClipboard_special {z : Zstd} (name : List Char) {data : Bytes}
    (h : data.length ≤ (z.compress data).length) :
    (clipboardDataToProto z (.special name data)).bind (fromClipboard z) = some (.special name (text name)) := by
  simp only [clipboardDataToProto, Option.bind_some, specialToProto, if_neg (Nat.not_lt.mpr h), fromClipboard,
    Zstd.unpack, Bool.false_eq_true, if_false]

theorem faithful_of_arrives {z : Zstd} (hz : z.Sound) {d : ClipboardData}
    (hsides : ∀ width height bytes, d = .rgba width height bytes → width < 2 ^ 63 ∧ height < 2 ^ 63)
    (h : (clipboardDataToProto z d).bind (fromClipboard z) = some d) : Faithful z d := by
  cases d with
  | text s =>
    simp only [clipboardDataToProto, Option.bind_some, fromClipboard, plainToProto, Option.map_eq_some_iff,
      ClipboardData.text.injEq, exists_eq_right] at h
    exact encode_of_unpack hz h
  | html s =>
    simp only [clipboardDataToProto, Option.bind_some, fromClipboard, plainToProto, Option.map_eq_some_iff,
      ClipboardData.html.injEq, exists_eq_right] at h
    exact encode_of_unpack hz h
  | rtf s =>
    simp only [clipboardDataToProto, Option.bind_some, fromClipboard, plainToProto, Option.map_eq_some_iff,
      ClipboardData.rtf.injEq, exists_eq_right] at h
    exact encode_of_unpack hz h
  | rgba width height bytes =>
    obtain ⟨hwidth, hheight⟩ := hsides width height bytes rfl
    simp only [clipboardDataToProto, Option.bind_some, fromClipboard, Option.some.injEq,
      ClipboardData.rgba.injEq] at h
    refine ⟨lt_of_signExtend hwidth h.1, lt_of_signExtend hheight h.2.1, fun hbytes hfailed => hbytes ?_⟩
    rw [unpack_pack_failed hz hbytes hfailed] at h
    exact h.2.2.symm
  | png bytes => trivial
  | svg s =>
    simp only [clipboardDataToProto, Option.bind_some, fromClipboard, plainToProto, Option.some.injEq,
      ClipboardData.svg.injEq] at h
    intro hs hfailed
    rw [unpack_pack_failed hz hs hfailed] at h
    rw [← h] at hs
    exact hs rfl
  | fileUrl urls => cases h
  | special name d =>
    unfold Faithful
    dsimp only
    by_cases hshort : (z.compress d).length < d.length
    · rw [if_pos hshort]
      simp only [clipboardDataToProto, Option.bind_some, specialToProto, if_pos hshort, fromClipboard,
        Zstd.unpack, if_true, Option.some.injEq, ClipboardData.special.injEq, true_and] at h
      intro hfailed
      rw [Zstd.compress_failed hfailed, hz.decompress_nil] at h
      rw [← h] at hshort
      exact Nat.not_lt_zero _ hshort
    · rw [if_neg hshort]
      simp only [clipboardDataToProto, Option.bind_some, specialToProto, if_neg hshort, fromClipboard,
        Zstd.unpack, Bool.false_eq_true, if_false, Option.some.injEq, ClipboardData.special.injEq,
        true_and] at h
      exact h.symm

/-- An item arrives as it was just when it is `Faithful`: what the compressor fails on is lost, and a special
format that does not get shorter is replaced by its name. -/
theorem clipboard_item_iff {z : Zstd} (hz : z.Sound) {d : ClipboardData}
    (hsides : ∀ width height bytes, d = .rgba width height bytes → width < 2 ^ 63 ∧ height < 2 ^ 63) :
    ((clipboardDataToProto z d).bind (fromClipboard z) = some d ↔ Faithful z d) ∧
      ∀ name data, d = .special name data → data.length ≤ (z.compress data).length →
        (clipboardDataToProto z d).bind (fromClipboard z) = some (.special name (text name)) := by
  refine ⟨⟨faithful_of_arrives hz hsides, fromClipboard_toProto hz⟩, ?_⟩
  rintro name data rfl hlong
  exact fromClipboard_special name hlong

theorem sound_stored : Zstd.stored.Sound where
  undoes _ _ h := congrArg some (Option.some.inj h).symm
  empty _ h := (Option.some.inj h).symm

/-- A spreadsheet of one byte, and a picture whose side is negative for the other end. -/
theorem clipboard_item_iff_replaced :
    ¬ (clipboardDataToProto .stored (.special ['X', 'M', 'L'] [5])).bind (fromClipboard .stored) =
        some (.special ['X', 'M', 'L'] [5])
      ∧ ¬ (clipboardDataToProto .stored (.rgba 2147483648 1 [5])).bind (fromClipboard .stored) =
        some (.rgba 2147483648 1 [5]) :=
  ⟨fun h => absurd ((clipboard_item_iff sound_stored (by intro width height bytes h; cases h)).1.mp h) (by decide),
   fun h => absurd ((clipboard_item_iff sound_stored (by intro width height bytes h; cases h; decide)).1.mp h)
    (by decide)⟩

/-- What is sent is what arrives. -/
theorem fromMultiClipboards_create {z : Zstd} (hz : z.Sound) {data : List ClipboardData}
    (h : ∀ d ∈ data, Faithful z d) : fromMultiClipboards z (createMultiClipboards z data) = data := by
  unfold fromMultiClipboards createMultiClipboards
  rw [List.filterMap_filterMap]
  induction data with
  | nil => rfl
  | cons d data ih =>
    rw [List.filterMap_cons, fromClipboard_toProto hz (h d List.mem_cons_self)]
    dsimp only
    rw [ih fun other hother => h other (List.mem_cons_of_mem _ hother)]

/-! ### One clipboard -/

inductive ClipboardSide
  | host
  | client
  deriving DecidableEq, Repr

namespace ClipboardSide

def getOwnerData : ClipboardSide → Bytes
  | .host => [1]
  | .client => [2]

/-- Either side is the owner for both. -/
def isOwner (data : Bytes) : Bool :=
  match data with
  | [] => false
  | b :: _ => b &&& 3 ≠ 0

end ClipboardSide

def appendOwnerMarker (data : List ClipboardData) (side : ClipboardSide) : List ClipboardData :=
  data ++ [.special ownerFormat side.getOwnerData]

/-- The mark is there. -/
def isOwned (data : List ClipboardData) : Bool :=
  data.any fun d => match d with
    | .special name d => name = ownerFormat && ClipboardSide.isOwner d
    | _ => false

/-- What `get_formats_filter` keeps. -/
def isSynchronized : ClipboardData → Bool
  | .special name _ => name ≠ ownerFormat
  | .text s => s ≠ []
  | _ => true

def isFileUrl : ClipboardData → Bool
  | .fileUrl _ => true
  | _ => false

def getFormatsFilter (data : List ClipboardData) (force : Bool) : List ClipboardData :=
  if data = [] then []
  else if !force && isOwned data then []
  else data.filter isSynchronized

/-- Files have a clipboard service of their own. -/
def get (data : List ClipboardData) (force : Bool) : List ClipboardData :=
  let data := getFormatsFilter data force
  if data.any isFileUrl then [] else data

/-- `check_clipboard` -/
def checkClipboard (z : Zstd) (data : List ClipboardData) : Option (List Clipboard) :=
  let content := get data false
  if content ≠ [] then some (createMultiClipboards z content) else none

/-- What `update_clipboard_` sets, if anything. -/
def updateClipboard (z : Zstd) (clipboards : List Clipboard) (side : ClipboardSide) : Option (List ClipboardData) :=
  let data := fromMultiClipboards z clipboards
  if data = [] then none else some (appendOwnerMarker data side)

/-! ### Many clipboards -/

/-- A message on its way to a machine, which is there as a side of the connection. -/
structure Delivery (κ : Type) where
  dest : κ
  side : ClipboardSide
  clipboards : List Clipboard
  deriving DecidableEq, Repr

/-- `changed` are the listeners that are to look at the clipboard of their machine, and `last` is
`LAST_MULTI_CLIPBOARDS` of the clients. `copied` is what the users have copied, `sent` what the listeners have
sent and `greeted` what was sent after logins, for which some clipboards were read, those in `found`. -/
structure Session (κ : Type) where
  boards : κ → List ClipboardData
  changed : List (κ × ClipboardSide) := []
  flight : List (Delivery κ) := []
  last : κ → List Clipboard := fun _ => []
  copied : List (κ × List ClipboardData) := []
  sent : List (κ × List Clipboard) := []
  greeted : List (κ × List Clipboard) := []
  found : List (κ × List ClipboardData) := []

/-- A user copies something, a listener looks at the clipboard, a message is applied, or a client has logged
in at a host. -/
inductive Event (κ : Type)
  | copy (m : κ) (data : List ClipboardData)
  | check (i : Nat)
  | update (i : Nat)
  | login (m host : κ)
  deriving DecidableEq, Repr

section

variable {κ : Type} [DecidableEq κ]

/-- The connections from a client to a host. -/
abbrev Links (κ : Type) := List (κ × κ)

/-- The machines that a machine sends to as a side, and the side that they are. -/
def Links.peers (links : Links κ) (m : κ) : ClipboardSide → List (κ × ClipboardSide)
  | .client => (links.filter (·.1 = m)).map fun l => (l.2, .host)
  | .host => (links.filter (·.2 = m)).map fun l => (l.1, .client)

namespace Session

/-- The clipboard of a machine is another one, and both listeners are told. -/
def set (s : Session κ) (m : κ) (data : List ClipboardData) : Session κ :=
  { s with
    boards := fun n => if n = m then data else s.boards n
    changed := s.changed ++ [(m, .host), (m, .client)] }

def look (z : Zstd) (links : Links κ) (s : Session κ) (m : κ) (side : ClipboardSide) : Session κ :=
  match checkClipboard z (s.boards m) with
  | none => s
  | some clipboards =>
    { s with
      flight := s.flight ++ (links.peers m side).map fun peer => { dest := peer.1, side := peer.2, clipboards }
      last := fun n => if side = .client ∧ n = m then clipboards else s.last n
      sent := (m, clipboards) :: s.sent }

/-- `get_current_clipboard_msg` -/
def getCurrentClipboard (z : Zstd) (s : Session κ) (m : κ) : Session κ :=
  if s.last m = [] then
    { s with
      last := fun n => if n = m then createMultiClipboards z (get (s.boards m) true) else s.last n
      found := (m, s.boards m) :: s.found }
  else s

def login (z : Zstd) (s : Session κ) (m host : κ) : Session κ :=
  let s := s.getCurrentClipboard z m
  if s.last m = [] then s
  else
    { s with
      flight := s.flight ++ [{ dest := host, side := .host, clipboards := s.last m }]
      greeted := (m, s.last m) :: s.greeted }

def step (z : Zstd) (links : Links κ) (s : Session κ) : Event κ → Session κ
  | .copy m data => { s.set m data with copied := (m, data) :: s.copied }
  | .check i =>
    match s.changed[i]? with
    | none => s
    | some (m, side) => { s with changed := s.changed.eraseIdx i }.look z links m side
  | .update i =>
    match s.flight[i]? with
    | none => s
    | some d =>
      let s := { s with flight := s.flight.eraseIdx i }
      match updateClipboard z d.clipboards d.side with
      | none => s
      | some data => s.set d.dest data
  | .login m host => s.login z m host

/-- The user of the machine has copied it there. -/
def Own (z : Zstd) (s : Session κ) (m : κ) (clipboards : List Clipboard) : Prop :=
  ∃ data, (m, data) ∈ s.copied ∧ checkClipboard z data = some clipboards

/-- It was in the clipboard when there was nothing that had been sent. -/
def Found (z : Zstd) (s : Session κ) (m : κ) (clipboards : List Clipboard) : Prop :=
  ∃ data, (m, data) ∈ s.found ∧ createMultiClipboards z (get data true) = clipboards

end Session

/-- What a machine has sent, its own user has copied there; only after a login it may be what the clipboard
had then, or at an earlier login. -/
structure NoEcho (z : Zstd) (s : Session κ) : Prop where
  sent : ∀ m clipboards, (m, clipboards) ∈ s.sent → s.Own z m clipboards
  greeted : ∀ m clipboards, (m, clipboards) ∈ s.greeted → s.Own z m clipboards ∨ s.Found z m clipboards

/-- No one is to look or to apply anything. -/
def Quiet (s : Session κ) : Prop := s.changed = [] ∧ s.flight = []

/-- When all is quiet, the peers of the machine where something was copied last have it. -/
def Agrees (links : Links κ) (s : Session κ) : Prop :=
  Quiet s → ∀ m data, s.copied.head? = some (m, data) → get data true ≠ [] →
    s.boards m = data ∧ ∀ side, ∀ peer ∈ links.peers m side, get (s.boards peer.1) true = get data true

end

/-! ### Looking at a clipboard -/

section

variable {data : List ClipboardData}

theorem isOwner_getOwnerData (side : ClipboardSide) : ClipboardSide.isOwner side.getOwnerData = true := by
  cases side with
  | host => rfl
  | client => rfl

theorem isOwned_appendOwnerMarker (data : List ClipboardData) (side : ClipboardSide) :
    isOwned (appendOwnerMarker data side) = true := by
  unfold isOwned appendOwnerMarker
  rw [List.any_append, Bool.or_eq_true]
  refine Or.inr (List.any_eq_true.mpr ⟨_, List.mem_singleton_self _, ?_⟩)
  dsimp only
  rw [isOwner_getOwnerData, Bool.and_true, decide_eq_true_eq]

theorem get_owned (h : isOwned data = true) : get data false = [] := by
  have hnone : getFormatsFilter data false = [] := by
    unfold getFormatsFilter
    rw [h]
    exact ite_self []
  unfold get
  dsimp only
  rw [hnone]
  exact ite_self []

theorem get_force (h : isOwned data = false) : get data false = get data true := by
  have hsame : getFormatsFilter data false = getFormatsFilter data true := by
    unfold getFormatsFilter
    rw [h]
    rfl
  unfold get
  rw [hsame]

theorem get_eq (data : List ClipboardData) :
    get data true =
      if (data.filter isSynchronized).any isFileUrl then [] else data.filter isSynchronized := by
  have hfilter : getFormatsFilter data true = data.filter isSynchronized := by
    unfold getFormatsFilter
    by_cases hnone : data = []
    · rw [if_pos hnone, hnone, List.filter_nil]
    · rw [if_neg hnone]
      rfl
  unfold get
  dsimp only
  rw [hfilter]

/-- A mark is not part of the content. -/
theorem get_appendOwnerMarker (data : List ClipboardData) (side : ClipboardSide) :
    get (appendOwnerMarker data side) true = get data true := by
  have hmark : isSynchronized (.special ownerFormat side.getOwnerData) = false := by
    unfold isSynchronized
    exact decide_eq_false (not_not.mpr rfl)
  have hfilter : (appendOwnerMarker data side).filter isSynchronized = data.filter isSynchronized := by
    unfold appendOwnerMarker
    rw [List.filter_append, List.filter_cons_of_neg (by rw [hmark]; exact Bool.false_ne_true), List.filter_nil,
      List.append_nil]
  rw [get_eq, get_eq, hfilter]

theorem get_get (data : List ClipboardData) : get (get data true) true = get data true := by
  rw [get_eq data]
  split_ifs with hfile
  · rfl
  · rw [get_eq, List.filter_filter]
    simp only [Bool.and_self]
    exact if_neg hfile

theorem checkClipboard_eq (z : Zstd) (h : get data false ≠ []) :
    checkClipboard z data = some (createMultiClipboards z (get data false)) := if_pos h

theorem checkClipboard_owned (z : Zstd) (h : isOwned data = true) : checkClipboard z data = none := by
  unfold checkClipboard
  rw [get_owned h]
  exact if_neg (not_not.mpr rfl)

end

/-! ### Runs -/

section

variable {κ : Type} {z : Zstd} {s s' : Session κ}

theorem Session.Own.mono {m : κ} {clipboards : List Clipboard} (h : s.Own z m clipboards)
    (hcopied : ∀ c ∈ s.copied, c ∈ s'.copied) : s'.Own z m clipboards := by
  obtain ⟨data, hdata, hcheck⟩ := h
  exact ⟨data, hcopied _ hdata, hcheck⟩

theorem NoEcho.mono (h : NoEcho z s) (hcopied : ∀ c ∈ s.copied, c ∈ s'.copied)
    (hfound : ∀ f ∈ s.found, f ∈ s'.found) (hsent : s'.sent = s.sent) (hgreeted : s'.greeted = s.greeted) :
    NoEcho z s' := by
  refine ⟨fun m clipboards hmem => ?_, fun m clipboards hmem => ?_⟩
  · rw [hsent] at hmem
    exact (h.sent m clipboards hmem).mono hcopied
  · rw [hgreeted] at hmem
    refine (h.greeted m clipboards hmem).imp (fun hown => hown.mono hcopied) ?_
    rintro ⟨data, hdata, hcreate⟩
    exact ⟨data, hfound _ hdata, hcreate⟩

end

section

variable {κ : Type} [DecidableEq κ] {z : Zstd} {links : Links κ} {s : Session κ}

/-- A clipboard that a listener is to look at has the mark, or its user has copied what is there. -/
structure Marked (z : Zstd) (s : Session κ) : Prop where
  changed : ∀ p ∈ s.changed, isOwned (s.boards p.1) = true ∨ (p.1, s.boards p.1) ∈ s.copied
  last : ∀ m, s.last m ≠ [] → s.Own z m (s.last m) ∨ s.Found z m (s.last m)
  sent : NoEcho z s

namespace Marked

theorem set (h : Marked z s) {m : κ} {data : List ClipboardData} {copied : List (κ × List ClipboardData)}
    (hdata : isOwned data = true ∨ (m, data) ∈ copied) (hcopied : ∀ c ∈ s.copied, c ∈ copied) :
    Marked z { s.set m data with copied } := by
  refine ⟨fun p hp => ?_, fun n hn => ?_, h.sent.mono hcopied (fun _ => id) rfl rfl⟩
  · dsimp only [Session.set]
    by_cases hm : p.1 = m
    · rw [if_pos hm, hm]
      exact hdata
    · rw [if_neg hm]
      have hp : p ∈ s.changed := by
        rcases List.mem_append.mp hp with hp | hp
        · exact hp
        · rcases List.mem_pair.mp hp with rfl | rfl
          · exact absurd rfl hm
          · exact absurd rfl hm
      exact (h.changed p hp).imp_right (hcopied _)
  · exact (h.last n hn).imp_left fun hown => hown.mono hcopied

theorem look (h : Marked z s) {m : κ} (hm : isOwned (s.boards m) = true ∨ (m, s.boards m) ∈ s.copied)
    (side : ClipboardSide) : Marked z (s.look z links m side) := by
  unfold Session.look
  split
  · exact h
  · rename_i clipboards hcheck
    have hown : s.Own z m clipboards := by
      rcases hm with howned | hcopied
      · rw [checkClipboard_owned z howned] at hcheck
        cases hcheck
      · exact ⟨s.boards m, hcopied, hcheck⟩
    refine ⟨h.changed, fun n hn => ?_, fun n other hsent => ?_, h.sent.greeted⟩
    · dsimp only at hn ⊢
      by_cases hclient : side = .client ∧ n = m
      · rw [if_pos hclient, hclient.2]
        exact Or.inl hown
      · rw [if_neg hclient] at hn ⊢
        exact h.last n hn
    · rcases List.mem_cons.mp hsent with heq | hsent
      · cases heq
        exact hown
      · exact h.sent.sent n other hsent

theorem getCurrentClipboard (h : Marked z s) (m : κ) : Marked z (s.getCurrentClipboard z m) := by
  unfold Session.getCurrentClipboard
  split_ifs
  · refine ⟨h.changed, fun n hn => ?_, h.sent.mono (fun _ => id) (fun _ => List.mem_cons_of_mem _) rfl rfl⟩
    dsimp only at hn ⊢
    by_cases hm : n = m
    · rw [if_pos hm, hm]
      exact Or.inr ⟨s.boards m, List.mem_cons_self, rfl⟩
    · rw [if_neg hm] at hn ⊢
      refine (h.last n hn).imp_right ?_
      rintro ⟨data, hdata, hcreate⟩
      exact ⟨data, List.mem_cons_of_mem _ hdata, hcreate⟩
  · exact h

theorem login (h : Marked z s) (m host : κ) : Marked z (s.login z m host) := by
  have hcurrent := h.getCurrentClipboard m
  unfold Session.login
  dsimp only
  split_ifs with hnone
  · exact hcurrent
  · refine ⟨hcurrent.changed, hcurrent.last, hcurrent.sent.sent, fun n clipboards hgreeted => ?_⟩
    rcases List.mem_cons.mp hgreeted with heq | hgreeted
    · cases heq
      exact hcurrent.last m hnone
    · exact hcurrent.sent.greeted n clipboards hgreeted

theorem step (h : Marked z s) (e : Event κ) : Marked z (s.step z links e) := by
  cases e with
  | copy m data => exact h.set (Or.inr List.mem_cons_self) fun _ => List.mem_cons_of_mem _
  | check i =>
    dsimp only [Session.step]
    cases hi : s.changed[i]? with
    | none => exact h
    | some p =>
      have herased : Marked z { s with changed := s.changed.eraseIdx i } :=
        ⟨fun p hp => h.changed p (List.mem_of_mem_eraseIdx hp), h.last, h.sent.sent, h.sent.greeted⟩
      exact herased.look (h.changed p (List.mem_of_getElem? hi)) p.2
  | update i =>
    dsimp only [Session.step]
    cases s.flight[i]? with
    | none => exact h
    | some d =>
      dsimp only
      have herased : Marked z { s with flight := s.flight.eraseIdx i } :=
        ⟨h.changed, h.last, h.sent.sent, h.sent.greeted⟩
      unfold updateClipboard
      dsimp only
      by_cases hnone : fromMultiClipboards z d.clipboards = []
      · rw [if_pos hnone]
        exact herased
      · rw [if_neg hnone]
        exact herased.set (Or.inl (isOwned_appendOwnerMarker _ _)) fun _ => id
  | login m host => exact h.login m host

end Marked

/-- Nothing that came from another machine is sent on by a listener. -/
theorem clipboard_no_echo (z : Zstd) (links : Links κ) (boards : κ → List ClipboardData) (es : List (Event κ)) :
    Throughout (Session.step z links) (NoEcho z) { boards } es := by
  have hstart : Marked z { boards } :=
    ⟨fun _ hp => absurd hp List.not_mem_nil, fun _ hlast => absurd rfl hlast,
      fun _ _ hsent => absurd hsent List.not_mem_nil, fun _ _ hgreeted => absurd hgreeted List.not_mem_nil⟩
  exact History.throughout_imp (fun _ h => h.sent)
    (History.throughout_of_step (fun _ e h => h.step e) hstart es)

/-- A user copies when all is quiet, and what can be sent; the logins come before. -/
def Possible (z : Zstd) (s : Session κ) : Event κ → Prop
  | .copy _ data => Quiet s ∧ isOwned data = false ∧ ∀ d ∈ get data true, Faithful z d
  | .check _ | .update _ => True
  | .login _ _ => s.copied = []

instance (s : Session κ) : ∀ e, Decidable (Possible z s e)
  | .copy _ _ => inferInstanceAs (Decidable ((_ = _ ∧ _ = _) ∧ _))
  | .check _ | .update _ => .isTrue trivial
  | .login _ _ => inferInstanceAs (Decidable (s.copied = []))

/-- What was copied last is where it was copied, and there or on its way to the peers. -/
structure Spread (z : Zstd) (links : Links κ) (s : Session κ) (m : κ) (data : List ClipboardData) : Prop where
  unowned : isOwned data = false
  faithful : ∀ d ∈ get data true, Faithful z d
  board : s.boards m = data
  changed : ∀ p ∈ s.changed, p.1 = m ∨ isOwned (s.boards p.1) = true
  flight : ∀ d ∈ s.flight, d.dest ≠ m ∧ get data true ≠ [] ∧
    d.clipboards = createMultiClipboards z (get data true)
  reaches : get data true ≠ [] → ∀ side, ∀ peer ∈ links.peers m side,
    (m, side) ∈ s.changed ∨ (∃ d ∈ s.flight, d.dest = peer.1) ∨ get (s.boards peer.1) true = get data true

/-- Nothing was copied yet, or the last copy spreads. -/
def Spreads (z : Zstd) (links : Links κ) (s : Session κ) : Prop :=
  match s.copied.head? with
  | none => True
  | some (m, data) => Spread z links s m data

theorem mem_eraseIdx {α : Type} {xs : List α} {i : Nat} {x y : α} (hi : xs[i]? = some y) (hx : x ∈ xs)
    (hne : x ≠ y) : x ∈ xs.eraseIdx i := by
  obtain ⟨j, hj⟩ := List.mem_iff_getElem?.mp hx
  have hij : j ≠ i := by
    rintro rfl
    exact hne (Option.some.inj (hj.symm.trans hi))
  rw [List.mem_eraseIdx_iff_getElem?]
  exact ⟨j, hij, hj⟩

theorem peer_ne (hlinks : ∀ l ∈ links, l.1 ≠ l.2) {m : κ} {side : ClipboardSide} {peer : κ × ClipboardSide}
    (h : peer ∈ links.peers m side) : peer.1 ≠ m := by
  cases side with
  | client =>
    obtain ⟨l, hl, rfl⟩ := List.mem_map.mp h
    obtain ⟨hl, hm⟩ := List.mem_filter.mp hl
    rw [← of_decide_eq_true hm]
    exact (hlinks l hl).symm
  | host =>
    obtain ⟨l, hl, rfl⟩ := List.mem_map.mp h
    obtain ⟨hl, hm⟩ := List.mem_filter.mp hl
    rw [← of_decide_eq_true hm]
    exact hlinks l hl

namespace Spread

variable {m : κ} {data : List ClipboardData}

theorem copied (hquiet : Quiet s) (howned : isOwned data = false) (hfaithful : ∀ d ∈ get data true, Faithful z d)
    (m : κ) : Spread z links (s.step z links (.copy m data)) m data := by
  obtain ⟨hchanged, hflight⟩ := hquiet
  refine ⟨howned, hfaithful, if_pos rfl, fun p hp => ?_, fun d hd => ?_, fun _ side _ _ => Or.inl ?_⟩
  · dsimp only [Session.step, Session.set] at hp
    rw [hchanged] at hp
    rcases List.mem_pair.mp hp with rfl | rfl
    · exact Or.inl rfl
    · exact Or.inl rfl
  · dsimp only [Session.step, Session.set] at hd
    rw [hflight] at hd
    exact absurd hd List.not_mem_nil
  · dsimp only [Session.step, Session.set]
    rw [hchanged]
    cases side with
    | host => exact List.mem_cons_self
    | client => exact List.mem_cons_of_mem _ List.mem_cons_self

/-- A listener of the machine looks: all peers of its side are sent what was copied. -/
theorem look (h : Spread z links s m data) (hlinks : ∀ l ∈ links, l.1 ≠ l.2) {i : Nat} {side : ClipboardSide}
    (hi : s.changed[i]? = some (m, side)) :
    Spread z links ({ s with changed := s.changed.eraseIdx i }.look z links m side) m data := by
  have hother : ∀ p ∈ s.changed.eraseIdx i, p.1 = m ∨ isOwned (s.boards p.1) = true :=
    fun p hp => h.changed p (List.mem_of_mem_eraseIdx hp)
  unfold Session.look
  dsimp only
  rw [h.board]
  by_cases hcontent : get data true = []
  · have hnone : checkClipboard z data = none := by
      unfold checkClipboard
      rw [get_force h.unowned, hcontent]
      exact if_neg (not_not.mpr rfl)
    rw [hnone]
    exact ⟨h.unowned, h.faithful, h.board, hother, h.flight, fun hsome => absurd hcontent hsome⟩
  · have hcheck : checkClipboard z data = some (createMultiClipboards z (get data true)) := by
      rw [← get_force h.unowned] at hcontent ⊢
      exact checkClipboard_eq z hcontent
    rw [hcheck]
    refine ⟨h.unowned, h.faithful, h.board, hother, fun d hd => ?_, fun _ side' peer hpeer => ?_⟩
    · rcases List.mem_append.mp hd with hd | hd
      · exact h.flight d hd
      · obtain ⟨peer, hpeer, rfl⟩ := List.mem_map.mp hd
        exact ⟨peer_ne hlinks hpeer, hcontent, rfl⟩
    · by_cases hside : side' = side
      · refine Or.inr (Or.inl ⟨_, List.mem_append_right _ (List.mem_map_of_mem (hside ▸ hpeer)), rfl⟩)
      · rcases h.reaches hcontent side' peer hpeer with hchanged | ⟨d, hd, hdest⟩ | hdone
        · refine Or.inl (mem_eraseIdx hi hchanged fun heq => hside (congrArg Prod.snd heq))
        · exact Or.inr (Or.inl ⟨d, List.mem_append_left _ hd, hdest⟩)
        · exact Or.inr (Or.inr hdone)

/-- A listener of another machine looks, and finds the mark. -/
theorem look_other (h : Spread z links s m data) {i : Nat} {n : κ} {side : ClipboardSide}
    (hi : s.changed[i]? = some (n, side)) (hn : n ≠ m) :
    Spread z links ({ s with changed := s.changed.eraseIdx i }.look z links n side) m data := by
  have howned : isOwned (s.boards n) = true :=
    (h.changed _ (List.mem_of_getElem? hi)).resolve_left hn
  unfold Session.look
  dsimp only
  rw [checkClipboard_owned z howned]
  refine ⟨h.unowned, h.faithful, h.board, fun p hp => h.changed p (List.mem_of_mem_eraseIdx hp), h.flight,
    fun hcontent side' peer hpeer => ?_⟩
  exact (h.reaches hcontent side' peer hpeer).imp_left fun hchanged =>
    mem_eraseIdx hi hchanged fun heq => hn (congrArg Prod.fst heq).symm

/-- A message is applied: that machine has what was copied, with the mark. -/
theorem update (h : Spread z links s m data) (hz : z.Sound) {i : Nat} {d : Delivery κ}
    (hi : s.flight[i]? = some d) :
    Spread z links (s.step z links (.update i)) m data := by
  obtain ⟨hdest, hcontent, hclipboards⟩ := h.flight d (List.mem_of_getElem? hi)
  have hupdate : updateClipboard z d.clipboards d.side = some (appendOwnerMarker (get data true) d.side) := by
    unfold updateClipboard
    rw [hclipboards, fromMultiClipboards_create hz h.faithful]
    exact if_neg hcontent
  dsimp only [Session.step]
  rw [hi]
  dsimp only
  rw [hupdate]
  refine ⟨h.unowned, h.faithful, (if_neg hdest.symm).trans h.board, fun p hp => ?_,
    fun d' hd' => h.flight d' (List.mem_of_mem_eraseIdx hd'), fun _ side peer hpeer => ?_⟩
  · dsimp only [Session.set] at hp ⊢
    by_cases hp' : p.1 = d.dest
    · rw [if_pos hp']
      exact Or.inr (isOwned_appendOwnerMarker _ _)
    · rw [if_neg hp']
      rcases List.mem_append.mp hp with hp | hp
      · exact h.changed p hp
      · rcases List.mem_pair.mp hp with rfl | rfl
        · exact absurd rfl hp'
        · exact absurd rfl hp'
  · dsimp only [Session.set]
    by_cases hpeer' : peer.1 = d.dest
    · rw [if_pos hpeer', get_appendOwnerMarker, get_get]
      exact Or.inr (Or.inr rfl)
    · rw [if_neg hpeer']
      rcases h.reaches hcontent side peer hpeer with hchanged | ⟨d', hd', hdest'⟩ | hdone
      · exact Or.inl (List.mem_append_left _ hchanged)
      · refine Or.inr (Or.inl ⟨d', mem_eraseIdx hi hd' fun heq => hpeer' ?_, hdest'⟩)
        rw [← heq, hdest']
      · exact Or.inr (Or.inr hdone)

end Spread

theorem copied_check (s : Session κ) (i : Nat) : (s.step z links (.check i)).copied = s.copied := by
  dsimp only [Session.step]
  split
  · rfl
  · unfold Session.look
    split <;> rfl

theorem copied_update (s : Session κ) (i : Nat) : (s.step z links (.update i)).copied = s.copied := by
  dsimp only [Session.step]
  split
  · rfl
  · split <;> rfl

theorem copied_login (s : Session κ) (m host : κ) : (s.step z links (.login m host)).copied = s.copied := by
  dsimp only [Session.step]
  unfold Session.login Session.getCurrentClipboard
  dsimp only
  split_ifs <;> rfl

theorem Spreads.step (h : Spreads z links s) (hz : z.Sound) (hlinks : ∀ l ∈ links, l.1 ≠ l.2) {e : Event κ}
    (he : Possible z s e) : Spreads z links (s.step z links e) := by
  cases e with
  | copy m data =>
    obtain ⟨hquiet, howned, hfaithful⟩ := he
    exact Spread.copied hquiet howned hfaithful m
  | check i =>
    unfold Spreads at h ⊢
    rw [copied_check]
    cases hlast : s.copied.head? with
    | none => trivial
    | some last =>
      rw [hlast] at h
      dsimp only [Session.step] at h ⊢
      cases hi : s.changed[i]? with
      | none => exact h
      | some p =>
        obtain ⟨n, side⟩ := p
        by_cases hn : n = last.1
        · subst hn
          exact h.look hlinks hi
        · exact h.look_other hi hn
  | update i =>
    unfold Spreads at h ⊢
    rw [copied_update]
    cases hlast : s.copied.head? with
    | none => trivial
    | some last =>
      rw [hlast] at h
      dsimp only at h ⊢
      cases hi : s.flight[i]? with
      | none =>
        dsimp only [Session.step]
        rw [hi]
        exact h
      | some d => exact h.update hz hi
  | login m host =>
    unfold Spreads
    rw [copied_login, show s.copied = [] from he]
    trivial

theorem Spreads.agrees (h : Spreads z links s) : Agrees links s := by
  intro hquiet m data hlast hcontent
  unfold Spreads at h
  rw [hlast] at h
  refine ⟨h.board, fun side peer hpeer => ?_⟩
  rcases h.reaches hcontent side peer hpeer with hchanged | ⟨d, hd, -⟩ | hdone
  · rw [hquiet.1] at hchanged
    exact absurd hchanged List.not_mem_nil
  · rw [hquiet.2] at hd
    exact absurd hd List.not_mem_nil
  · exact hdone

/-- What is copied reaches all peers as it is, whatever the listeners and the threads do in between. -/
theorem clipboards_agree (hz : z.Sound) (hlinks : ∀ l ∈ links, l.1 ≠ l.2) {boards : κ → List ClipboardData}
    {es : List (Event κ)} (h : Guarded (Session.step z links) (Possible z) { boards } es) :
    Throughout (Session.step z links) (Agrees links) { boards } es := by
  have hstart : Spreads z links { boards } := trivial
  exact History.throughout_imp (fun _ hs => hs.agrees)
    (History.throughout_of_guarded (fun _ _ hs he => hs.step hz hlinks he) hstart h)

end

/-- A machine that controls two others; something is copied on one of these, and then there. -/
def threeMachines : List (Event Nat) :=
  [.copy 2 [.text ['a']], .check 0, .check 0, .update 0, .check 0, .check 0, .copy 1 [.text ['b'], .png [7]],
   .check 1, .check 0, .update 1, .check 0, .check 0, .update 0, .check 1, .check 0]

theorem clipboards_agree_three :
    get ((run (Session.step .stored [(1, 2), (1, 3)]) { boards := fun _ => [] } threeMachines).boards 3) true =
        [.text ['b'], .png [7]]
      ∧ Throughout (Session.step .stored [(1, 2), (1, 3)]) (Agrees [(1, 2), (1, 3)]) { boards := fun _ => [] }
          threeMachines :=
  ⟨by decide, clipboards_agree sound_stored (by decide) (by decide)⟩

end RustDesk.ClipboardSync
