import RustDesk.History
import RustDesk.Message
import RustDesk.Plurality
import Mathlib.Data.Set.Card

/-!
# The codec that all peers of a host can decode

The host encodes one stream for every peer that watches it. Each peer declares what it can
decode and what it prefers; `Encoder::update` registers or removes a declaration and then
negotiates anew. The declarations are in a hash map, which is iterated in an order of its
own: the model takes the order as a parameter of every call.
-/

namespace RustDesk

inductive CodecFormat
  | vp8
  | vp9
  | av1
  | h264
  | h265
  deriving DecidableEq, Repr

inductive PreferCodec
  | auto
  | vp9
  | h264
  | h265
  | vp8
  | av1
  deriving DecidableEq, Repr

namespace PreferCodec

/-- The number of a choice in the message. -/
def value : PreferCodec → Int
  | auto => 0
  | vp9 => 1
  | h264 => 2
  | h265 => 3
  | vp8 => 4
  | av1 => 5

/-- `enum_value_or(PreferCodec::Auto)` -/
def enumValueOrAuto (v : Int) : PreferCodec :=
  if v = 1 then vp9 else if v = 2 then h264 else if v = 3 then h265 else if v = 4 then vp8
  else if v = 5 then av1 else auto

end PreferCodec

/-- What a peer declares for a codec; its `prefer` need not be the number of a known choice. -/
def SupportedDecoding.ability (d : SupportedDecoding) : CodecFormat → Int
  | .vp8 => d.abilityVp8
  | .vp9 => d.abilityVp9
  | .av1 => d.abilityAv1
  | .h264 => d.abilityH264
  | .h265 => d.abilityH265

structure SupportedEncoding where
  vp8 : Bool
  av1 : Bool
  h264 : Bool
  h265 : Bool
  deriving DecidableEq, Repr

inductive EncodingUpdate
  | update (id : Int) (decoding : SupportedDecoding)
  | remove (id : Int)
  | newOnlyVp9 (id : Int)
  | check
  deriving DecidableEq, Repr

/-- The build, the options and the encoders of the host. -/
structure HostCodecs where
  sizeOfUsize : Nat := 8
  vram : Bool := false
  enableVramOption : Bool := false
  vramAvailable : CodecFormat → List String := fun _ => []
  hwcodec : Bool := false
  enableHwcodecOption : Bool := false
  hwTryGet : CodecFormat → Option String := fun _ => none
  optionAv1Test : String := ""
  totalMemory : Nat := 8 * 1024 * 1024 * 1024

def HostCodecs.disableAv1 (host : HostCodecs) : Bool := host.sizeOfUsize == 4

abbrev Decodings := List (Int × SupportedDecoding)

/-- The order in which a hash map happens to be iterated. -/
structure IterationOrder where
  order : Decodings → Decodings
  perm : ∀ decodings, (order decodings).Perm decodings

structure EncoderState where
  peerDecodings : Decodings := []
  encodeCodecFormat : CodecFormat := .vp9
  usableEncoding : Option SupportedEncoding := none
  deriving DecidableEq, Repr

namespace Encoder

def insert (id : Int) (d : SupportedDecoding) (decodings : Decodings) : Decodings :=
  (id, d) :: decodings.filter fun p => p.1 ≠ id

def register (decodings : Decodings) : EncodingUpdate → Decodings
  | .update id d => insert id d decodings
  | .remove id => decodings.filter fun p => p.1 ≠ id
  | .newOnlyVp9 id => insert id { abilityVp9 := 1 } decodings
  | .check => decodings

/-- `decodings.len() > 0 && decodings.iter().all(..)` -/
def allSupport (decodings : Decodings) (f : CodecFormat) : Bool :=
  decide (decodings.length > 0) && decodings.all fun p => decide (p.2.ability f > 0)

def vramEncoding (host : HostCodecs) (decodings : Decodings) (f : CodecFormat) : Bool :=
  host.vram && host.enableVramOption && allSupport decodings f &&
    decide ((host.vramAvailable f).length > 0)

def hwEncoding (host : HostCodecs) (decodings : Decodings) (f : CodecFormat) : Option String :=
  if host.hwcodec && host.enableHwcodecOption && allSupport decodings f then host.hwTryGet f
  else none

def hardwareUseable (host : HostCodecs) (decodings : Decodings) (f : CodecFormat) : Bool :=
  allSupport decodings f &&
    (vramEncoding host decodings f || (hwEncoding host decodings f).isSome)

def useable (host : HostCodecs) (decodings : Decodings) : SupportedEncoding where
  vp8 := allSupport decodings .vp8
  av1 := allSupport decodings .av1 && !host.disableAv1
  h264 := hardwareUseable host decodings .h264
  h265 := hardwareUseable host decodings .h265

/-- The preferences that count, in the order of the iteration. -/
def preferences (u : SupportedEncoding) (decodings : Decodings) : List Int :=
  (decodings.filter fun p =>
    p.2.prefer == PreferCodec.vp9.value
      || p.2.prefer == PreferCodec.vp8.value && u.vp8
      || p.2.prefer == PreferCodec.av1.value && u.av1
      || p.2.prefer == PreferCodec.h264.value && u.h264
      || p.2.prefer == PreferCodec.h265.value && u.h265).map fun p => p.2.prefer

def preference (u : SupportedEncoding) (decodings : Decodings) : PreferCodec :=
  .enumValueOrAuto ((Plurality.leader (preferences u decodings)).getD PreferCodec.auto.value)

def autoCodec (host : HostCodecs) (u : SupportedEncoding) : CodecFormat :=
  let codec : CodecFormat := if u.av1 && host.optionAv1Test != "N" then .av1 else .vp9
  let codec := if u.h264 then .h264 else codec
  let codec := if u.h265 then .h265 else codec
  if codec = .vp9 ∨ codec = .av1 then
    if u.vp8 && decide (host.totalMemory ≤ 4 * 1024 * 1024 * 1024) then .vp8 else codec
  else codec

def chooseFormat (host : HostCodecs) (decodings : Decodings) (u : SupportedEncoding) :
    PreferCodec → CodecFormat
  | .vp8 => .vp8
  | .vp9 => .vp9
  | .av1 => .av1
  | .h264 =>
    if vramEncoding host decodings .h264 || (hwEncoding host decodings .h264).isSome then .h264
    else autoCodec host u
  | .h265 =>
    if vramEncoding host decodings .h265 || (hwEncoding host decodings .h265).isSome then .h265
    else autoCodec host u
  | .auto => autoCodec host u

def update (host : HostCodecs) (s : EncoderState) (i : IterationOrder × EncodingUpdate) :
    EncoderState :=
  let decodings := register s.peerDecodings i.2
  let iteration := i.1.order decodings
  let u := useable host iteration
  { peerDecodings := decodings
    encodeCodecFormat := chooseFormat host iteration u (preference u iteration)
    usableEncoding := some u }

/-- The encoder after a sequence of updates, from the start of the program. -/
def updates (host : HostCodecs) (is : List (IterationOrder × EncodingUpdate)) : EncoderState :=
  History.run (update host) {} is

end Encoder

/-! ### The purpose of the negotiation

`Peers` is who is registered with which declaration, whatever order they came in. -/

abbrev Peers := Int → Option SupportedDecoding

/-- The peers that a sequence of updates leaves registered. -/
def registered : List EncodingUpdate → Peers :=
  List.foldl (fun peers u => match u with
    | .update id d => Function.update peers id (some d)
    | .remove id => Function.update peers id none
    | .newOnlyVp9 id => Function.update peers id (some { abilityVp9 := 1 })
    | .check => peers) fun _ => none

namespace Negotiation

/-- What the host itself needs for a format. -/
def HostSupports (host : HostCodecs) : CodecFormat → Prop
  | .vp8 => True
  | .vp9 => True
  | .av1 => host.disableAv1 = false
  | f => host.vram = true ∧ host.enableVramOption = true ∧ host.vramAvailable f ≠ [] ∨
      host.hwcodec = true ∧ host.enableHwcodecOption = true ∧ (host.hwTryGet f).isSome

def AllDeclare (peers : Peers) (f : CodecFormat) : Prop :=
  ∀ id d, peers id = some d → d.ability f > 0

def Usable (host : HostCodecs) (peers : Peers) (f : CodecFormat) : Prop :=
  AllDeclare peers f ∧ HostSupports host f

def Anyone (peers : Peers) : Prop := ∃ id d, peers id = some d

/-- The format that an explicit preference asks for. -/
def asked (v : Int) : Option CodecFormat :=
  match PreferCodec.enumValueOrAuto v with
  | .auto => none
  | .vp9 => some .vp9
  | .h264 => some .h264
  | .h265 => some .h265
  | .vp8 => some .vp8
  | .av1 => some .av1

/-- The peers with an explicit preference for a format. -/
def holders (peers : Peers) (f : CodecFormat) : Set Int :=
  {id | ∃ d, peers id = some d ∧ asked d.prefer = some f}

/-- There is no entry for VP9, which is always there. -/
def lists (u : SupportedEncoding) : CodecFormat → Bool
  | .vp8 => u.vp8
  | .vp9 => true
  | .av1 => u.av1
  | .h264 => u.h264
  | .h265 => u.h265

/-- The automatic choice: H265, H264, then VP8 where memory is short, AV1, VP9. -/
def IsAutomatic (host : HostCodecs) (usable : CodecFormat → Prop) (f : CodecFormat) : Prop :=
  (f = .h265 ∧ usable .h265) ∨
  (¬ usable .h265 ∧ f = .h264 ∧ usable .h264) ∨
  (¬ usable .h265 ∧ ¬ usable .h264 ∧
    ((f = .vp8 ∧ usable .vp8 ∧ host.totalMemory ≤ 4 * 1024 * 1024 * 1024) ∨
      (¬ (usable .vp8 ∧ host.totalMemory ≤ 4 * 1024 * 1024 * 1024) ∧
        ((f = .av1 ∧ usable .av1 ∧ host.optionAv1Test ≠ "N") ∨
          (f = .vp9 ∧ ¬ (usable .av1 ∧ host.optionAv1Test ≠ "N"))))))

/-- What the encoder holds agrees with what is usable for the peers. -/
structure Agrees (host : HostCodecs) (usable : CodecFormat → Prop) (peers : Peers)
    (s : EncoderState) : Prop where
  format : s.encodeCodecFormat = .vp9 ∨ usable s.encodeCodecFormat
  listed : ∃ u, s.usableEncoding = some u ∧ ∀ f ≠ .vp9, lists u f = true ↔ usable f
  vote : (∃ f, s.encodeCodecFormat = f ∧ (f = .vp9 ∨ usable f) ∧ (holders peers f).Nonempty ∧
      ∀ g, g = .vp9 ∨ usable g → (holders peers g).ncard ≤ (holders peers f).ncard) ∨
    ((∀ f, f = .vp9 ∨ usable f → holders peers f = ∅) ∧
      IsAutomatic host usable s.encodeCodecFormat)

/-- The map holds the registered peers. -/
structure Represents (decodings : Decodings) (peers : Peers) : Prop where
  nodup : (decodings.map Prod.fst).Nodup
  mem_iff : ∀ id d, (id, d) ∈ decodings ↔ peers id = some d

open Encoder

variable {host : HostCodecs} {decodings : Decodings} {peers : Peers} {u : SupportedEncoding}
  {f : CodecFormat} {id : Int} {d : SupportedDecoding}

/-! ### The map -/

theorem Represents.perm {other : Decodings} (h : Represents decodings peers)
    (hp : other.Perm decodings) : Represents other peers :=
  ⟨(hp.map _).nodup_iff.mpr h.nodup, fun id d => hp.mem_iff.trans (h.mem_iff id d)⟩

theorem Represents.erase (h : Represents decodings peers) (id : Int) :
    Represents (decodings.filter fun p => p.1 ≠ id) (Function.update peers id none) := by
  refine ⟨h.nodup.sublist (List.filter_sublist.map _), fun x d => ?_⟩
  rw [List.mem_filter, h.mem_iff]
  by_cases hx : x = id
  · subst hx
    simp
  · simp [hx]

theorem Represents.insert (h : Represents decodings peers) (id : Int) (d : SupportedDecoding) :
    Represents (insert id d decodings) (Function.update peers id (some d)) := by
  have he := h.erase id
  refine ⟨?_, fun x e => ?_⟩
  · rw [Encoder.insert, List.map_cons, List.nodup_cons]
    refine ⟨?_, he.nodup⟩
    simp
  · rw [Encoder.insert, List.mem_cons, he.mem_iff]
    by_cases hx : x = id
    · subst hx
      simp [eq_comm]
    · simp [hx]

theorem represents_register (h : Represents decodings peers) (us : List EncodingUpdate)
    (hp : peers = registered us) (v : EncodingUpdate) :
    Represents (register decodings v) (registered (us ++ [v])) := by
  rw [registered, List.foldl_append]
  subst hp
  cases v with
  | update id d => exact h.insert id d
  | remove id => exact h.erase id
  | newOnlyVp9 id => exact h.insert id _
  | check => exact h

/-! ### What is usable -/

theorem Represents.anyone (h : Represents decodings peers) :
    0 < decodings.length ↔ Anyone peers := by
  rw [List.length_pos_iff_exists_mem]
  constructor
  · rintro ⟨⟨id, d⟩, hm⟩
    exact ⟨id, d, (h.mem_iff id d).mp hm⟩
  · rintro ⟨id, d, hd⟩
    exact ⟨(id, d), (h.mem_iff id d).mpr hd⟩

theorem Represents.allSupport (h : Represents decodings peers) (f : CodecFormat) :
    allSupport decodings f = true ↔ Anyone peers ∧ AllDeclare peers f := by
  rw [Encoder.allSupport, Bool.and_eq_true, decide_eq_true_iff, List.all_eq_true, gt_iff_lt,
    h.anyone]
  refine and_congr_right fun _ => ?_
  constructor
  · intro hall id d hd
    simpa using hall (id, d) ((h.mem_iff id d).mpr hd)
  · rintro hall ⟨id, d⟩ hm
    simpa using hall id d ((h.mem_iff id d).mp hm)

theorem hardwareUseable_iff (h : Represents decodings peers) (hf : f = .h264 ∨ f = .h265) :
    hardwareUseable host decodings f = true ↔ Anyone peers ∧ Usable host peers f := by
  have hs := h.allSupport f
  have hhost : HostSupports host f ↔
      host.vram = true ∧ host.enableVramOption = true ∧ host.vramAvailable f ≠ [] ∨
      host.hwcodec = true ∧ host.enableHwcodecOption = true ∧ (host.hwTryGet f).isSome := by
    rcases hf with rfl | rfl <;> rfl
  rw [Usable, hhost, ← and_assoc, ← hs, hardwareUseable, Bool.and_eq_true]
  refine and_congr_right fun hall => ?_
  rw [vramEncoding, hwEncoding, hall, Bool.or_eq_true]
  refine or_congr ?_ ?_
  · simp [List.length_pos_iff, and_assoc]
  · cases host.hwcodec <;> cases host.enableHwcodecOption <;> simp

theorem lists_useable (h : Represents decodings peers) (hf : f ≠ .vp9) :
    lists (useable host decodings) f = true ↔ Anyone peers ∧ Usable host peers f := by
  cases f with
  | vp8 => simpa [lists, useable, Usable, HostSupports] using h.allSupport .vp8
  | vp9 => exact absurd rfl hf
  | av1 =>
    have := h.allSupport .av1
    simp only [lists, useable, Usable, HostSupports, Bool.and_eq_true, Bool.not_eq_true', this]
    exact and_assoc
  | h264 => exact hardwareUseable_iff h (.inl rfl)
  | h265 => exact hardwareUseable_iff h (.inr rfl)

/-! ### The vote -/

/-- The number of the preference for a format. -/
def ask : CodecFormat → Int
  | .vp8 => PreferCodec.vp8.value
  | .vp9 => PreferCodec.vp9.value
  | .av1 => PreferCodec.av1.value
  | .h264 => PreferCodec.h264.value
  | .h265 => PreferCodec.h265.value

theorem asked_eq_some {v : Int} : asked v = some f ↔ v = ask f := by
  constructor
  · intro h
    unfold asked PreferCodec.enumValueOrAuto at h
    split_ifs at h with h1 h2 h3 h4 h5 <;> cases h <;> assumption
  · rintro rfl
    cases f <;> rfl

theorem mem_preferences {v : Int} : v ∈ preferences u decodings ↔
    ∃ f, v = ask f ∧ lists u f = true ∧ ∃ id d, (id, d) ∈ decodings ∧ d.prefer = ask f := by
  simp only [preferences, List.mem_map, List.mem_filter, Bool.or_eq_true, Bool.and_eq_true,
    beq_iff_eq]
  constructor
  · rintro ⟨⟨id, d⟩, ⟨hm, hp⟩, rfl⟩
    rcases hp with (((hp | ⟨hp, hu⟩) | ⟨hp, hu⟩) | ⟨hp, hu⟩) | ⟨hp, hu⟩
    · exact ⟨.vp9, hp, rfl, id, d, hm, hp⟩
    · exact ⟨.vp8, hp, hu, id, d, hm, hp⟩
    · exact ⟨.av1, hp, hu, id, d, hm, hp⟩
    · exact ⟨.h264, hp, hu, id, d, hm, hp⟩
    · exact ⟨.h265, hp, hu, id, d, hm, hp⟩
  · rintro ⟨f, rfl, hu, id, d, hm, hp⟩
    refine ⟨(id, d), ⟨hm, ?_⟩, hp⟩
    cases f <;> simp only [lists] at hu <;> simp [hp, hu, ask]

theorem count_preferences (hu : lists u f = true) : (preferences u decodings).count (ask f) =
    (decodings.filter fun p => decide (p.2.prefer = ask f)).length := by
  rw [preferences, List.count, List.countP_map, List.countP_filter, ← List.countP_eq_length_filter]
  apply List.countP_congr
  rintro ⟨id, d⟩ -
  simp only [Function.comp_apply, Bool.and_eq_true, beq_iff_eq, decide_eq_true_iff]
  refine and_iff_left_of_imp fun hp => ?_
  cases f <;> simp only [lists] at hu <;> simp [hp, hu, ask]

theorem Represents.ncard_holders (h : Represents decodings peers) (f : CodecFormat) :
    (holders peers f).ncard =
      (decodings.filter fun p => decide (p.2.prefer = ask f)).length := by
  have hset : holders peers f =
      ↑((decodings.filter fun p => decide (p.2.prefer = ask f)).map Prod.fst).toFinset := by
    ext id
    simp only [holders, Set.mem_ofPred_eq, asked_eq_some, List.coe_toFinset, List.mem_map,
      List.mem_filter, decide_eq_true_iff]
    constructor
    · rintro ⟨d, hd, hp⟩
      exact ⟨(id, d), ⟨(h.mem_iff id d).mpr hd, hp⟩, rfl⟩
    · rintro ⟨⟨x, d⟩, ⟨hm, hp⟩, rfl⟩
      exact ⟨d, (h.mem_iff x d).mp hm, hp⟩
  rw [hset, Set.ncard_coe_finset,
    List.toFinset_card_of_nodup (h.nodup.sublist (List.filter_sublist.map _)), List.length_map]

theorem holders_nonempty (h : Represents decodings peers) (hm : (id, d) ∈ decodings)
    (hp : d.prefer = ask f) : (holders peers f).Nonempty :=
  ⟨id, d, (h.mem_iff id d).mp hm, asked_eq_some.mpr hp⟩

/-- A preference that counts is for a listed format, and the encoder follows it. -/
theorem chooseFormat_ask (hu : lists (useable host decodings) f = true) :
    chooseFormat host decodings (useable host decodings) (.enumValueOrAuto (ask f)) = f := by
  cases f with
  | vp8 => rfl
  | vp9 => rfl
  | av1 => rfl
  | h264 =>
    simp only [lists, useable, hardwareUseable, Bool.and_eq_true] at hu
    exact if_pos hu.2
  | h265 =>
    simp only [lists, useable, hardwareUseable, Bool.and_eq_true] at hu
    exact if_pos hu.2

theorem isAutomatic_autoCodec (host : HostCodecs) (u : SupportedEncoding) :
    IsAutomatic host (fun f => lists u f = true) (autoCodec host u) := by
  unfold IsAutomatic autoCodec lists
  dsimp only
  by_cases hmem : host.totalMemory ≤ 4 * 1024 * 1024 * 1024 <;>
    by_cases htest : host.optionAv1Test = "N" <;>
    cases u.h265 <;> cases u.h264 <;> cases u.vp8 <;> cases u.av1 <;> simp [hmem, htest]

theorem IsAutomatic.vp9_or {usable : CodecFormat → Prop} (h : IsAutomatic host usable f) :
    f = .vp9 ∨ usable f := by
  rcases h with ⟨rfl, h⟩ | ⟨-, rfl, h⟩ | ⟨-, -, ⟨rfl, h, -⟩ | ⟨-, ⟨rfl, h, -⟩ | ⟨rfl, -⟩⟩⟩
  · exact .inr h
  · exact .inr h
  · exact .inr h
  · exact .inr h
  · exact .inl rfl

theorem IsAutomatic.congr {p q : CodecFormat → Prop} (hpq : ∀ g ≠ .vp9, p g ↔ q g)
    (h : IsAutomatic host p f) : IsAutomatic host q f := by
  unfold IsAutomatic at h ⊢
  simp only [hpq _ (by decide : CodecFormat.h265 ≠ .vp9), hpq _ (by decide : CodecFormat.h264 ≠ .vp9),
    hpq _ (by decide : CodecFormat.vp8 ≠ .vp9), hpq _ (by decide : CodecFormat.av1 ≠ .vp9)] at h
  exact h

/-- One call of the encoder negotiates for the peers that are registered after it. -/
theorem agrees_negotiated (host : HostCodecs) (h : Represents decodings peers) :
    Agrees host (fun f => Anyone peers ∧ Usable host peers f) peers
      { peerDecodings := decodings
        encodeCodecFormat := chooseFormat host decodings (useable host decodings)
          (preference (useable host decodings) decodings)
        usableEncoding := some (useable host decodings) } := by
  have hlisted : ∀ f ≠ .vp9, lists (useable host decodings) f = true ↔
      Anyone peers ∧ Usable host peers f := fun f hf => lists_useable h hf
  have hlists : ∀ f, f = .vp9 ∨ (Anyone peers ∧ Usable host peers f) ↔
      lists (useable host decodings) f = true := by
    intro f
    by_cases hf : f = .vp9
    · simp [hf, lists]
    · simp [hf, hlisted f hf]
  by_cases hnil : preferences (useable host decodings) decodings = []
  · -- no preference counts
    have hauto : chooseFormat host decodings (useable host decodings)
        (preference (useable host decodings) decodings) =
          autoCodec host (useable host decodings) := by
      rw [preference, hnil, Plurality.leader_nil]
      rfl
    have hia := (isAutomatic_autoCodec host (useable host decodings)).congr hlisted
    refine ⟨?_, ⟨_, rfl, hlisted⟩, .inr ⟨fun f hf => ?_, ?_⟩⟩
    · dsimp only
      rw [hauto]
      exact hia.vp9_or
    · by_contra hne
      obtain ⟨id, d, hd, hp⟩ := Set.nonempty_iff_ne_empty.mpr hne
      have hmem := mem_preferences.mpr ⟨f, rfl, (hlists f).mp hf, id, d, (h.mem_iff id d).mpr hd,
        asked_eq_some.mp hp⟩
      rw [hnil] at hmem
      exact List.not_mem_nil hmem
    · dsimp only
      rw [hauto]
      exact hia
  · obtain ⟨v, hv, hleader, hmost⟩ := Plurality.exists_leader hnil
    obtain ⟨f, rfl, hu, id, d, hm, hp⟩ := mem_preferences.mp hv
    have hchoose : chooseFormat host decodings (useable host decodings)
        (preference (useable host decodings) decodings) = f := by
      rw [preference, hleader]
      exact chooseFormat_ask hu
    refine ⟨?_, ⟨_, rfl, hlisted⟩,
      .inl ⟨f, hchoose, (hlists f).mpr hu, holders_nonempty h hm hp, fun g hg => ?_⟩⟩
    · dsimp only
      rw [hchoose]
      exact (hlists f).mpr hu
    · rw [h.ncard_holders, h.ncard_holders, ← count_preferences ((hlists g).mp hg),
        ← count_preferences hu]
      exact hmost (ask g)

theorem represents_updates (host : HostCodecs) (is : List (IterationOrder × EncodingUpdate)) :
    Represents (updates host is).peerDecodings (registered (is.map Prod.snd)) := by
  induction is using List.reverseRecOn with
  | nil => exact ⟨List.nodup_nil, by simp [updates, History.run, registered]⟩
  | append_singleton is i ih =>
    have hrun : (updates host (is ++ [i])).peerDecodings =
        register (updates host is).peerDecodings i.2 := by
      simp [updates, History.run, update]
    rw [hrun, List.map_append, List.map_singleton]
    exact represents_register ih _ rfl i.2

end Negotiation

open Negotiation in
theorem encoder_negotiates (host : HostCodecs) (is : List (IterationOrder × EncodingUpdate))
    (i : IterationOrder × EncodingUpdate) :
    let peers := registered ((is ++ [i]).map Prod.snd)
    Agrees host (fun f => Anyone peers ∧ Usable host peers f) peers
      (Encoder.updates host (is ++ [i])) := by
  intro peers
  have hrep := represents_updates host (is ++ [i])
  have hrun : Encoder.updates host (is ++ [i]) =
      Encoder.update host (Encoder.updates host is) i := by
    simp [Encoder.updates, History.run]
  rw [hrun] at hrep ⊢
  obtain ⟨hf, hl, hv⟩ := agrees_negotiated host (hrep.perm (i.1.perm _))
  exact ⟨hf, hl, hv⟩

def IterationOrder.asStored : IterationOrder := ⟨id, List.Perm.refl⟩

/-- While nobody is registered, nobody lacks VP8, and still it is not listed. -/
theorem encoder_unwatched :
    let peers := registered [.check]
    Negotiation.Usable {} peers .vp8 ∧ ¬ Negotiation.Agrees {} (Negotiation.Usable {} peers) peers
      (Encoder.updates {} [(.asStored, .check)]) := by
  intro peers
  have husable : Negotiation.Usable {} peers .vp8 := by
    refine ⟨fun id d hd => ?_, trivial⟩
    simp [peers, registered] at hd
  refine ⟨husable, fun h => ?_⟩
  obtain ⟨u, hu, hlisted⟩ := h.listed
  have hvp8 := (hlisted .vp8 (by decide)).mpr husable
  rw [← Option.some.inj hu] at hvp8
  exact absurd hvp8 (by decide)

end RustDesk
