import Mathlib.Logic.Basic
import Mathlib.Tactic.ByContra
import Mathlib.Tactic.SplitIfs
import Libreac.Grant
import Libreac.Proofs.BytesProofs

/-!
# Proofs: frames that carry a control block

The parser looks at the EtherType, the type word and the block. `CarriesBlock frame t` says that the
template `t` stands in the frame, and what the parser makes of such a frame is read off the template
(`Template.kind`, `Template.headamp`).
-/

namespace Libreac

variable {frame bs : List UInt8} {t : Template} {off : ℕ}

/-! ## Copying bytes into a frame -/

theorem length_overwrite (h : off + bs.length ≤ frame.length) :
    (overwrite frame off bs).length = frame.length := by
  simp only [overwrite, List.length_append, List.length_take, List.length_drop]
  omega

theorem byteAt_overwrite_of_lt {i : ℕ} (h : i < off) (hoff : off ≤ frame.length) :
    byteAt (overwrite frame off bs) i = byteAt frame i := by
  unfold byteAt overwrite
  rw [List.append_assoc, List.getD_eq_getElem?_getD, List.getElem?_append_left (by simp; omega),
    List.getElem?_take_of_lt h, List.getD_eq_getElem?_getD]

theorem byteAt_overwrite {i : ℕ} (h : i < bs.length) (hoff : off ≤ frame.length) :
    byteAt (overwrite frame off bs) (off + i) = bs.getD i 0 := by
  have hlen : (frame.take off).length = off := by simp [hoff]
  unfold byteAt overwrite
  rw [List.append_assoc, List.getD_eq_getElem?_getD, List.getElem?_append_right (by omega), hlen,
    Nat.add_sub_cancel_left, List.getElem?_append_left h, List.getD_eq_getElem?_getD]

theorem byteAt_overwrite_of_ge {i : ℕ} (h : off + bs.length ≤ i)
    (hoff : off + bs.length ≤ frame.length) :
    byteAt (overwrite frame off bs) i = byteAt frame i := by
  have hlen : (frame.take off ++ bs).length = off + bs.length := by simp; omega
  unfold byteAt overwrite
  rw [List.getD_eq_getElem?_getD, List.getElem?_append_right (by omega), hlen, List.getElem?_drop,
    List.getD_eq_getElem?_getD, Nat.add_sub_cancel' h]

/-! ## The block a frame carries -/

/-- The frame is a REAC frame with the type word and the control block of `t`. -/
structure CarriesBlock (frame : List UInt8) (t : Template) : Prop where
  long : 50 ≤ frame.length
  etype : byteAt frame 12 = 0x88 ∧ byteAt frame 13 = 0x19
  block : ∀ i < 34, byteAt frame (16 + i) = t.byte i

/-- The EtherType `0x8819`. -/
def isReac (frame : List UInt8) : Bool := byteAt frame 12 = 0x88 ∧ byteAt frame 13 = 0x19

theorem toList_getD (t : Template) {i : ℕ} (h : i < 34) : t.toList.getD i 0 = t.byte i := by
  rw [byte_of_lt t h]
  simp [h]

/-- A template copied over type and block of a REAC frame. -/
theorem carriesBlock_overwrite (hlong : 50 ≤ frame.length)
    (hetype : byteAt frame 12 = 0x88 ∧ byteAt frame 13 = 0x19) (t : Template) :
    CarriesBlock (overwrite frame 16 t.toList) t := by
  have hsize : t.toList.length = 34 := t.length_toList
  refine ⟨?_, ?_, ?_⟩
  · rw [length_overwrite (by omega)]
    exact hlong
  · rw [byteAt_overwrite_of_lt (by omega) (by omega), byteAt_overwrite_of_lt (by omega) (by omega)]
    exact hetype
  · intro i hi
    rw [byteAt_overwrite (by omega) (by omega), toList_getD t hi]

/-- Every REAC frame carries its own block. -/
theorem carriesBlock_self (hlong : 50 ≤ frame.length)
    (hetype : byteAt frame 12 = 0x88 ∧ byteAt frame 13 = 0x19) :
    CarriesBlock frame (Vector.ofFn fun i => byteAt frame (16 + i)) := by
  refine ⟨hlong, hetype, ?_⟩
  intro i hi
  rw [byte_ofFn _ hi]

theorem CarriesBlock.closes (h : CarriesBlock frame t) :
    checksumVerify frame = true ↔ t.cksumOk := by
  unfold checksumVerify Template.cksumOk
  rw [byteSum_congr fun i hi => ?_, beq_iff_eq]
  have hb := h.block (2 + i) (by omega)
  rw [← hb, ← Nat.add_assoc]

/-- A word is its two bytes. -/
theorem u16be_eq_iff {hi lo : UInt8} {w : UInt16} :
    u16be hi lo = w ↔ hi = (w >>> 8).toUInt8 ∧ lo = w.toUInt8 := by
  have hval : (u16be hi lo).toNat = hi.toNat * 256 + lo.toNat := by
    have hlo := lo.toNat_lt
    have hhi := hi.toNat_lt
    rw [u16be, UInt16.toNat_or, UInt16.toNat_shiftLeft]
    simp only [UInt8.toNat_toUInt16]
    have h8 : (8 : UInt16).toNat % 16 = 8 := rfl
    rw [h8, Nat.mod_eq_of_lt (by rw [Nat.shiftLeft_eq]; omega),
      ← Nat.shiftLeft_add_eq_or_of_lt (by omega), Nat.shiftLeft_eq]
  have hw := w.toNat_lt
  constructor
  · rintro rfl
    have hlo := lo.toNat_lt
    have hhi := hi.toNat_lt
    constructor
    · apply UInt8.toNat.inj
      simp [hval, Nat.shiftRight_eq_div_pow]
      omega
    · apply UInt8.toNat.inj
      simp [hval]
  · rintro ⟨rfl, rfl⟩
    apply UInt16.toNat.inj
    rw [hval]
    simp [Nat.shiftRight_eq_div_pow]
    omega

/-- The kind of control frame a type word and a block make. -/
def Template.kind (t : Template) : CtrlKind :=
  if t.byte 0 = 0x00 ∧ t.byte 1 = 0x00 then .filler
  else if t.byte 0 = 0xcf ∧ t.byte 1 = 0xea then .masterAnnounce
  else if t.byte 0 = 0xce ∧ t.byte 1 = 0xea then .splitAnnounce
  else if t.byte 0 ≠ 0xcd ∨ t.byte 1 ≠ 0xea then .unknownCtrl
  else if t.byte 2 = 1 then kindOfLink1 (t.byte 6)
  else if t.byte 2 = 2 then .link2
  else if t.byte 2 = 4 then
    if t.byte 3 ≠ 0x03 then .recordFragment
    else if t.byte 16 = 0x12 ∧ t.byte 17 = 0x12 ∧ t.byte 18 = 0x01 ∧ t.byte 19 = 0x01 then .headamp
    else .grant
  else .unknownCtrl

/-- Byte `i` of the control block. -/
theorem CarriesBlock.byte (h : CarriesBlock frame t) {i : ℕ} (hi : i < 32) :
    byteAt frame (18 + i) = t.byte (2 + i) := by
  rw [← h.block (2 + i) (by omega), ← Nat.add_assoc]

theorem CarriesBlock.kind (h : CarriesBlock frame t) : (ctrlParse frame).kind = t.kind := by
  have hb : ∀ i < 32, byteAt frame (18 + i) = t.byte (2 + i) := fun i hi => h.byte hi
  have ht := h.block 0 (by omega)
  have ht' := h.block 1 (by omega)
  have hlong := h.long
  have htag : u16be (t.byte 18) (t.byte 19) = 0x0101 ↔ t.byte 18 = 0x01 ∧ t.byte 19 = 0x01 :=
    u16be_eq_iff
  unfold ctrlParse Template.kind
  rw [if_neg (by simp [h.etype]; omega)]
  simp only [Nat.add_zero, hb 0 (by omega), hb 1 (by omega), hb 2 (by omega), hb 3 (by omega),
    hb 4 (by omega), hb 14 (by omega), hb 15 (by omega), hb 16 (by omega), hb 17 (by omega),
    hb 18 (by omega), hb 19 (by omega), hb 20 (by omega), ht, ht', htag, Nat.reduceAdd,
    apply_ite CtrlParsed.kind]

/-- The head-amp record of a parsed frame: channel, parameter and value. -/
def CtrlParsed.headamp (p : CtrlParsed) : Option (ℕ × ℕ × UInt8) :=
  if p.kind = .headamp then some (p.ch.toNat, p.param.toNat, p.value) else none

/-- The addresses and the header of a parsed frame are those of the frame. -/
theorem CarriesBlock.header (h : CarriesBlock frame t) :
    (ctrlParse frame).src = macAt frame 6 ∧ (ctrlParse frame).dst = macAt frame 0 ∧
      (ctrlParse frame).isBroadcast = (macAt frame 0 == broadcastMac) ∧
      (ctrlParse frame).seg = t.byte 3 ∧ (ctrlParse frame).opcode = t.byte 6 := by
  have hlong := h.long
  have hseg : byteAt frame 19 = t.byte 3 := h.byte (show 1 < 32 by omega)
  have hopcode : byteAt frame 22 = t.byte 6 := h.byte (show 4 < 32 by omega)
  unfold ctrlParse
  rw [if_neg (by simp [h.etype]; omega), ← hseg, ← hopcode]
  dsimp only
  refine ⟨?_, ?_, ?_, ?_, ?_⟩
  · simp only [apply_ite CtrlParsed.src, ite_self]
  · simp only [apply_ite CtrlParsed.dst, ite_self]
  · simp only [apply_ite CtrlParsed.isBroadcast, ite_self]
  · simp only [apply_ite CtrlParsed.seg, ite_self]
  · simp only [apply_ite CtrlParsed.opcode, ite_self]

/-- A single record is parsed with its tag. -/
theorem CarriesBlock.tag (h : CarriesBlock frame t)
    (hrec : t.byte 0 = 0xcd ∧ t.byte 1 = 0xea ∧ t.byte 2 = 0x04 ∧ t.byte 3 = 0x03) :
    (ctrlParse frame).dt1Tag = u16be (t.byte 18) (t.byte 19) := by
  obtain ⟨h0, h1, h2, h3⟩ := hrec
  have hlong := h.long
  have htype : byteAt frame 16 = 0xcd ∧ byteAt frame 17 = 0xea :=
    ⟨(h.block 0 (by omega)).trans h0, (h.block 1 (by omega)).trans h1⟩
  unfold ctrlParse
  rw [if_neg (by simp [h.etype]; omega)]
  simp only [htype.1, htype.2, h.byte (show 0 < 32 by omega), h.byte (show 1 < 32 by omega),
    h.byte (show 16 < 32 by omega), h.byte (show 17 < 32 by omega), Nat.reduceAdd, h2, h3,
    apply_ite CtrlParsed.dt1Tag]
  simp

/-- A single record of another tag than the head-amp one. -/
theorem kind_grant (hrec : t.byte 0 = 0xcd ∧ t.byte 1 = 0xea ∧ t.byte 2 = 0x04 ∧ t.byte 3 = 0x03)
    (htag : ¬ (t.byte 18 = 0x01 ∧ t.byte 19 = 0x01)) : t.kind = .grant := by
  obtain ⟨h0, h1, h2, h3⟩ := hrec
  unfold Template.kind
  rw [h0, h1, h2, h3, if_neg (by decide), if_neg (by decide), if_neg (by decide),
    if_neg (by decide), if_neg (by decide), if_neg (by decide), if_pos rfl, if_neg (by decide), if_neg]
  rintro ⟨-, -, h18⟩
  exact htag h18

/-- Half a record. -/
theorem kind_fragment (hrec : t.byte 0 = 0xcd ∧ t.byte 1 = 0xea ∧ t.byte 2 = 0x04)
    (hseg : t.byte 3 ≠ 0x03) : t.kind = .recordFragment := by
  obtain ⟨h0, h1, h2⟩ := hrec
  unfold Template.kind
  rw [h0, h1, h2, if_neg (by decide), if_neg (by decide), if_neg (by decide), if_neg (by decide),
    if_neg (by decide), if_neg (by decide), if_pos rfl, if_pos hseg]

/-- A link-1 opcode stands for none of these kinds. -/
theorem kindOfLink1_sorts (op : UInt8) :
    kindOfLink1 op ≠ .none ∧ kindOfLink1 op ≠ .filler ∧ kindOfLink1 op ≠ .grant ∧
      kindOfLink1 op ≠ .headamp := by
  unfold kindOfLink1
  split_ifs <;> simp

/-- Only the type word `00 00` makes a FILLER. -/
theorem kind_filler_iff : t.kind = .filler ↔ t.byte 0 = 0x00 ∧ t.byte 1 = 0x00 := by
  unfold Template.kind
  by_cases hfiller : t.byte 0 = 0x00 ∧ t.byte 1 = 0x00
  · simp [hfiller]
  · rw [if_neg hfiller]
    simp only [hfiller, iff_false]
    have hlink1 := (kindOfLink1_sorts (t.byte 6)).2.1
    split_ifs <;> simp [hlink1]

/-- A grant stands on link 4. -/
theorem link_of_kind_grant (h : t.kind = .grant) : t.byte 2 = 4 := by
  by_contra hne
  unfold Template.kind at h
  rw [if_neg hne] at h
  split_ifs at h
  exact (kindOfLink1_sorts _).2.2.1 h

theorem kind_headamp_iff :
    t.kind = .headamp ↔ t.byte 0 = 0xcd ∧ t.byte 1 = 0xea ∧ t.byte 2 = 0x04 ∧ t.byte 3 = 0x03 ∧
      t.byte 16 = 0x12 ∧ t.byte 17 = 0x12 ∧ t.byte 18 = 0x01 ∧ t.byte 19 = 0x01 := by
  constructor
  · intro h
    unfold Template.kind at h
    by_cases hfiller : t.byte 0 = 0x00 ∧ t.byte 1 = 0x00
    · rw [if_pos hfiller] at h
      cases h
    by_cases hannounce : t.byte 0 = 0xcf ∧ t.byte 1 = 0xea
    · rw [if_neg hfiller, if_pos hannounce] at h
      cases h
    by_cases hsplit : t.byte 0 = 0xce ∧ t.byte 1 = 0xea
    · rw [if_neg hfiller, if_neg hannounce, if_pos hsplit] at h
      cases h
    rw [if_neg hfiller, if_neg hannounce, if_neg hsplit] at h
    split_ifs at h with htype hlink1 hlink2 hlink hseg hrec
    · exact absurd h (kindOfLink1_sorts _).2.2.2
    · obtain ⟨h0, h1⟩ := not_or.mp htype
      obtain ⟨h16, h17, h18, h19⟩ := hrec
      exact ⟨Decidable.of_not_not h0, Decidable.of_not_not h1, hlink, Decidable.of_not_not hseg, h16, h17, h18, h19⟩
  · rintro ⟨h0, h1, h2, h3, h16, h17, h18, h19⟩
    simp [Template.kind, h0, h1, h2, h3, h16, h17, h18, h19]

/-- A head-amp record is parsed with the channel, the parameter and the value it names. -/
theorem CarriesBlock.headamp_args (h : CarriesBlock frame t) (hk : t.kind = .headamp) :
    (ctrlParse frame).ch = t.byte 20 ∧ (ctrlParse frame).param = t.byte 21 ∧
      (ctrlParse frame).value = t.byte 22 := by
  obtain ⟨h0, h1, h2, h3, h16, h17, h18, h19⟩ := kind_headamp_iff.mp hk
  have hlong := h.long
  have htype : byteAt frame 16 = 0xcd ∧ byteAt frame 17 = 0xea :=
    ⟨(h.block 0 (by omega)).trans h0, (h.block 1 (by omega)).trans h1⟩
  have htag : u16be (0x01 : UInt8) 0x01 = 0x0101 := by decide
  unfold ctrlParse
  rw [if_neg (by simp [h.etype]; omega)]
  simp only [htype.1, htype.2, h.byte (show 0 < 32 by omega), h.byte (show 1 < 32 by omega),
    h.byte (show 14 < 32 by omega), h.byte (show 15 < 32 by omega), h.byte (show 16 < 32 by omega),
    h.byte (show 17 < 32 by omega), h.byte (show 18 < 32 by omega), h.byte (show 19 < 32 by omega),
    h.byte (show 20 < 32 by omega), Nat.reduceAdd, h2, h3, h16, h17, h18, h19, htag]
  simp

/-! ## Any frame -/

theorem ctrlParse_reac (h : (ctrlParse frame).kind ≠ .none) :
    50 ≤ frame.length ∧ byteAt frame 12 = 0x88 ∧ byteAt frame 13 = 0x19 := by
  by_contra hn
  apply h
  unfold ctrlParse
  rw [if_pos]
  by_contra hreac
  simp only [not_or, Nat.not_lt, ne_eq, Decidable.not_not] at hreac
  exact hn hreac

/-- A frame that the parser names carries its own block. -/
theorem carriesBlock_of_kind (h : (ctrlParse frame).kind ≠ .none) :
    CarriesBlock frame (Vector.ofFn fun i => byteAt frame (16 + i)) := by
  obtain ⟨hlong, hetype⟩ := ctrlParse_reac h
  exact carriesBlock_self hlong hetype

theorem ctrlParse_src (h : (ctrlParse frame).kind ≠ .none) : (ctrlParse frame).src = macAt frame 6 :=
  (carriesBlock_of_kind h).header.1

theorem ctrlParse_dst (h : (ctrlParse frame).kind ≠ .none) :
    (ctrlParse frame).dst = macAt frame 0 ∧
      (ctrlParse frame).isBroadcast = (macAt frame 0 == broadcastMac) := by
  obtain ⟨-, hdst, hbroadcast, -⟩ := (carriesBlock_of_kind h).header
  exact ⟨hdst, hbroadcast⟩

theorem ctrlParse_filler_iff (frame : List UInt8) :
    (ctrlParse frame).kind = .filler ↔
      50 ≤ frame.length ∧ byteAt frame 12 = 0x88 ∧ byteAt frame 13 = 0x19 ∧
        byteAt frame 16 = 0x00 ∧ byteAt frame 17 = 0x00 := by
  constructor
  · intro h
    have hself := carriesBlock_of_kind (ne_of_eq_of_ne h CtrlKind.noConfusion)
    rw [hself.kind, kind_filler_iff, ← hself.block 0 (by omega), ← hself.block 1 (by omega)] at h
    exact ⟨hself.long, hself.etype.1, hself.etype.2, h⟩
  · rintro ⟨hlong, h12, h13, htype⟩
    have hself := carriesBlock_self hlong ⟨h12, h13⟩
    rw [hself.kind, kind_filler_iff, ← hself.block 0 (by omega), ← hself.block 1 (by omega)]
    exact htype

theorem ctrlParse_grant (h : (ctrlParse frame).kind = .grant) : byteAt frame 18 = 4 := by
  have hself := carriesBlock_of_kind (ne_of_eq_of_ne h CtrlKind.noConfusion)
  rw [hself.kind] at h
  rw [← link_of_kind_grant h, ← hself.block 2 (by omega)]

section Classifier

variable {our : Mac} {parsed : CtrlParsed} {ev : RxEvent}

/-- What the classifier reports is the parsed frame, verified unless it is a FILLER. -/
theorem classifyBoxFrame_some (h : classifyBoxFrame frame our = some (parsed, ev)) :
    parsed = ctrlParse frame ∧ parsed.kind ≠ .none ∧
      (parsed.kind ≠ .filler → checksumVerify frame = true) ∧ (ev = .join → parsed.kind = .grant) := by
  unfold classifyBoxFrame at h
  dsimp only at h
  generalize ctrlParse frame = p at h ⊢
  obtain ⟨hnone, h⟩ := Option.ite_none_left_eq_some.mp h
  obtain ⟨-, h⟩ := Option.ite_none_left_eq_some.mp h
  obtain ⟨-, h⟩ := Option.ite_none_left_eq_some.mp h
  obtain ⟨hck, h⟩ := Option.ite_none_left_eq_some.mp h
  have hsum : p.kind ≠ .filler → checksumVerify frame = true := by
    intro hfiller
    simpa [hfiller] using hck
  by_cases hgrant : p.kind = .grant
  · rw [if_pos hgrant] at h
    obtain ⟨-, heq⟩ := Option.ite_none_right_eq_some.mp h
    obtain ⟨rfl, -⟩ := Prod.mk.inj (Option.some.inj heq)
    exact ⟨rfl, hnone, hsum, fun _ => hgrant⟩
  · rw [if_neg hgrant] at h
    -- The early branch for records is the one that reports a JOIN.
    have hother : p = parsed ∧ ev ≠ .join := by
      split_ifs at h
      all_goals
        obtain ⟨rfl, rfl⟩ := Prod.mk.inj (Option.some.inj h)
        exact ⟨rfl, RxEvent.noConfusion⟩
    obtain ⟨rfl, hev⟩ := hother
    exact ⟨rfl, hnone, hsum, fun hjoin => absurd hjoin hev⟩

theorem classifyBoxFrame_src (h : classifyBoxFrame frame our = some (parsed, ev)) :
    parsed.src = macAt frame 6 := by
  obtain ⟨rfl, hnone, -⟩ := classifyBoxFrame_some h
  exact ctrlParse_src hnone

theorem classifyBoxFrame_join (h : classifyBoxFrame frame our = some (parsed, .join)) :
    (ctrlParse frame).kind = .grant := by
  obtain ⟨rfl, -, -, hjoin⟩ := classifyBoxFrame_some h
  exact hjoin rfl

theorem classifyBoxFrame_verified {pe : CtrlParsed × RxEvent}
    (h : classifyBoxFrame frame our = some pe) :
    (ctrlParse frame).kind ≠ .none ∧
      ((ctrlParse frame).kind ≠ .filler → checksumVerify frame = true) := by
  obtain ⟨parsed, ev⟩ := pe
  obtain ⟨rfl, hnone, hsum, -⟩ := classifyBoxFrame_some h
  exact ⟨hnone, hsum⟩

end Classifier

end Libreac
