import Mathlib.Tactic.IntervalCases
import Libreac.Machine
import Libreac.Pacer
import Libreac.Proofs.BoxProofs

/-!
# The identity page

The records a row synthesises are read back: the firmware and the version as single records, the name
out of its two fragments. Conversely a reassembled record is always the last first fragment and the
fragment that closes it, from one source.
-/

namespace Libreac

open Reactive (Machine Event)

variable {frame blk w : List UInt8}

/-! ## Single records -/

/-- The inner checksum closes the record it was made for. -/
theorem dt1Check_closes (l : List UInt8) :
    (byteSum (byteAt l) l.length + dt1Check l) &&& 0x7f = 0 := sevenBit_closes _

section Single

variable (addr : UInt16) (data : List UInt8)

/-- The 20 bytes in front of the data of a single record. -/
def singleHead : List UInt8 := dt1Head 0x03 (7 + 4 + data.length.toUInt8 + 2) addr

/-- What the generator of a single record writes. -/
def singleBytes : List UInt8 :=
  singleHead addr data ++ data ++ [dt1Check ((singleHead addr data).drop 16 ++ data), 0xf7]

theorem length_singleHead : (singleHead addr data).length = 20 := rfl

theorem length_singleBytes : (singleBytes addr data).length = data.length + 22 := by
  simp [singleBytes, length_singleHead]
  omega

variable {addr data}

theorem byteAt_single_head {i : ℕ} (hi : i < 20) :
    byteAt (singleBytes addr data) i = byteAt (singleHead addr data) i := by
  rw [singleBytes, List.append_assoc, byteAt_append_left (by rw [length_singleHead]; exact hi)]

theorem byteAt_single_data {i : ℕ} (hi : i < data.length) :
    byteAt (singleBytes addr data) (20 + i) = byteAt data i := by
  rw [singleBytes, byteAt_append_left (by simp [length_singleHead, hi]),
    byteAt_append_right (by simp [length_singleHead]), length_singleHead, Nat.add_sub_cancel_left]

theorem byteAt_single_cksum : byteAt (singleBytes addr data) (20 + data.length) =
    dt1Check ((singleHead addr data).drop 16 ++ data) := by
  rw [singleBytes, byteAt_append_right (by simp [length_singleHead])]
  simp [byteAt, length_singleHead]

theorem byteAt_single_end : byteAt (singleBytes addr data) (21 + data.length) = 0xf7 := by
  rw [singleBytes, byteAt_append_right (by simp [length_singleHead])]
  simp [byteAt, length_singleHead, show 21 + data.length - (20 + data.length) = 1 by omega]

/-- The inner checksum closes over tag, address and data. -/
theorem single_record_closes :
    recordCksumVerify (fun i => byteAt (singleBytes addr data) (16 + i)) (data.length + 5) = true := by
  have hlen : ((singleHead addr data).drop 16 ++ data).length = data.length + 4 := by
    simp [length_singleHead]
    omega
  have hbytes : ∀ i < data.length + 4, byteAt (singleBytes addr data) (16 + i) =
      byteAt ((singleHead addr data).drop 16 ++ data) i := by
    intro i hi
    by_cases h4 : i < 4
    · rw [byteAt_single_head (by omega), byteAt_append_left (by simp [length_singleHead]; omega)]
      simp [byteAt]
    · obtain ⟨j, rfl⟩ : ∃ j, i = 4 + j := ⟨i - 4, by omega⟩
      rw [← Nat.add_assoc, byteAt_single_data (by omega), byteAt_append_right (by simp [length_singleHead])]
      simp [length_singleHead]
  have hlast : byteAt (singleBytes addr data) (16 + (data.length + 4)) =
      dt1Check ((singleHead addr data).drop 16 ++ data) := by
    rw [← byteAt_single_cksum]
    congr 1
    omega
  unfold recordCksumVerify
  rw [beq_iff_eq, byteSum, byteSum_congr hbytes, hlast, ← hlen]
  exact dt1Check_closes _

end Single

/-- A record of up to nine bytes is read back from the frame that carries it. -/
theorem identityReply_dt1Single {addr : UInt16} {data : List UInt8}
    (h : CarriesBlock frame (boxTemplate (buildDt1Single addr data)))
    (hpos : 1 ≤ data.length) (hlen : data.length ≤ 9) : identityReply frame = some (addr, data) := by
  have hw : (singleBytes addr data).length ≤ 31 := by
    rw [length_singleBytes]
    omega
  have hblk : ∀ i < 31, byteAt (buildDt1Single addr data) i = byteAt (singleBytes addr data) i :=
    fun i hi => byteAt_blockCheck hw hi
  have hb : ∀ i < 31, byteAt frame (18 + i) = byteAt (singleBytes addr data) i := by
    intro i hi
    rw [h.blockAt (by omega), hblk i hi]
  have hhead : ∀ i < 20, byteAt frame (18 + i) = byteAt (singleHead addr data) i := by
    intro i hi
    rw [hb i (by omega), byteAt_single_head hi]
  have hfix : ∀ i < 18, i ≠ 8 → i ≠ 3 → byteAt frame (18 + i) = byteAt (dt1Head 0x03 0 0) i := by
    intro i hi h8 h3
    rw [hhead i (by omega)]
    unfold singleHead dt1Head
    interval_cases i <;> first | rfl | contradiction
  obtain ⟨hkind, htag⟩ := h.record ((h.blockAt (by omega)).symm.trans (hfix 0 (by omega) (by omega) (by omega)))
    ((h.blockAt (by omega)).symm.trans (hfix 1 (by omega) (by omega) (by omega))) (by
      rw [← h.blockAt (by omega), hfix 16 (by omega) (by omega) (by omega)]
      rintro ⟨h16, -⟩
      exact absurd h16 (by decide))
  rw [← h.blockAt (by omega), ← h.blockAt (by omega), hfix 16 (by omega) (by omega) (by omega),
    hfix 17 (by omega) (by omega) (by omega)] at htag
  have hn : (byteAt frame (18 + 8)).toNat = 13 + data.length := by
    rw [hhead 8 (by omega)]
    show (7 + 4 + data.length.toUInt8 + 2 : UInt8).toNat = _
    simp
    omega
  have hsum : checksumVerify frame = true :=
    h.closes.mpr (cksumOk_boxTemplate.mpr (byteSum_blockCheck _))
  have hend : byteAt frame (18 + (21 + data.length)) = 0xf7 :=
    (hb _ (by omega)).trans byteAt_single_end
  have hrec : recordCksumVerify (fun i => byteAt frame (18 + (16 + i))) (data.length + 5) = true := by
    have hcloses := @single_record_closes addr data
    rw [← hcloses]
    unfold recordCksumVerify
    rw [byteSum_congr fun i hi => hb (16 + i) (by omega)]
  have haddr : u16be (byteAt frame (18 + 18)) (byteAt frame (18 + 19)) = addr := by
    rw [hhead 18 (by omega), hhead 19 (by omega), u16be_eq_iff]
    exact ⟨rfl, rfl⟩
  have hpayload : blockBytes frame 20 data.length = data := by
    apply List.ext_getElem
    · simp [blockBytes]
    · intro i _ hi
      have hat := (hb (20 + i) (by omega)).trans (byteAt_single_data hi)
      simp only [blockBytes, List.getElem_map, List.getElem_range, Nat.add_assoc, hat]
      simp [byteAt, hi]
  have h9 := hfix 9 (by omega) (by omega) (by omega)
  have h14 := hfix 14 (by omega) (by omega) (by omega)
  have h15 := hfix 15 (by omega) (by omega) (by omega)
  have hlast : 9 + (13 + data.length) - 1 = 21 + data.length := by omega
  have hspan : 13 + data.length - 8 = data.length + 5 := by omega
  have hsize : 13 + data.length - 13 = data.length := by omega
  unfold identityReply
  dsimp only
  rw [hn, hlast, hspan, hsize, haddr, hpayload, if_neg (by rw [hkind, htag]; decide),
    if_neg (by rw [h14, h15]; decide), if_neg (by omega), if_neg (by rw [h9, hend]; decide),
    if_neg (by rw [hsum]; decide), if_neg (by rw [hrec]; decide)]

/-! ## The name record -/

theorem length_nameField (m : BoxRow) : (nameField m).length = 16 := by
  simp [nameField]

/-- A record of tag `05 00` with seventeen bytes of data closes as the name record. -/
theorem closeRecord_name {nm : List UInt8} (hnm : nm.length = 16) :
    closeRecord ([0xf0, 0x41, 0x0a, 0x00, 0x00, 0x12, 0x12, 0x05, 0x00, 0x10, 0x00, 0x01] ++ nm ++
      [dt1Check ([0x05, 0x00, 0x10, 0x00, 0x01] ++ nm), 0xf7]) = some (0x1000, 0x01 :: nm) := by
  set ck := dt1Check ([0x05, 0x00, 0x10, 0x00, 0x01] ++ nm) with hck
  set r := [0xf0, 0x41, 0x0a, 0x00, 0x00, 0x12, 0x12, 0x05, 0x00, 0x10, 0x00, 0x01] ++ nm ++ [ck, 0xf7]
    with hr
  have hlen : r.length = 30 := by simp [hr, hnm]
  have hend : byteAt r 29 = 0xf7 := by
    rw [hr, byteAt_append_right (by simp [hnm])]
    simp [byteAt, hnm]
  have hbytes : ∀ i < 21, byteAt r (7 + i) = byteAt ([0x05, 0x00, 0x10, 0x00, 0x01] ++ nm) i := by
    intro i hi
    have hshift : r = [0xf0, 0x41, 0x0a, 0x00, 0x00, 0x12, 0x12] ++
        ([0x05, 0x00, 0x10, 0x00, 0x01] ++ nm ++ [ck, 0xf7]) := by
      simp [hr]
    rw [hshift, byteAt_append_right (by simp), List.length_cons]
    simp only [List.length_cons, List.length_nil]
    rw [show 7 + i - (0 + 1 + 1 + 1 + 1 + 1 + 1 + 1) = i by omega,
      byteAt_append_left (by simp [hnm]; omega)]
  have hcks : byteAt r (7 + 21) = ck := by
    rw [hr, byteAt_append_right (by simp [hnm])]
    simp [byteAt, hnm]
  have hrec : recordCksumVerify (fun i => byteAt r (7 + i)) 22 = true := by
    have hspan : ([0x05, 0x00, 0x10, 0x00, 0x01] ++ nm).length = 21 := by simp [hnm]
    unfold recordCksumVerify
    rw [beq_iff_eq, byteSum, byteSum_congr hbytes, hcks, ← hspan]
    exact dt1Check_closes _
  have hpayload : (r.drop 11).take 17 = 0x01 :: nm := by
    simp [hr, hnm]
  have hfix : byteAt r 0 = 0xf0 ∧ byteAt r 1 = 0x41 ∧ byteAt r 3 = 0x00 ∧ byteAt r 4 = 0x00 ∧
      byteAt r 5 = 0x12 ∧ byteAt r 6 = 0x12 ∧ byteAt r 7 = 0x05 ∧ byteAt r 8 = 0x00 :=
    ⟨rfl, rfl, rfl, rfl, rfl, rfl, rfl, rfl⟩
  have haddr : u16be (byteAt r 9) (byteAt r 10) = 0x1000 := u16be_eq_iff.mpr ⟨rfl, rfl⟩
  unfold closeRecord
  dsimp only
  rw [hlen, haddr, hrec, hpayload, if_neg (by simp [hfix, hend])]
  rfl

theorem storeModelName_nameField {m : BoxRow} {name : CString} (hname : m.name = some name)
    (hne : name.bytes ≠ []) (id : Identity) :
    storeModelName id (0x01 :: nameField m) =
      { id with modelName := name.bytes.take 16, hasModelName := true } := by
  have hfield : (nameField m).takeWhile (· ≠ 0) = name.bytes.take 16 := by
    unfold nameField
    rw [hname]
    have hall : ∀ c ∈ name.bytes.take 16, (decide (c ≠ 0)) = true := by
      intro c hc
      exact decide_eq_true (name.noNul c (List.mem_of_mem_take hc))
    rw [Option.elim_some, List.take_append, List.take_take, Nat.min_self,
      List.takeWhile_append_of_pos hall, List.take_replicate]
    cases hpad : min (16 - (name.bytes.take 16).length) 16 with
    | zero => simp
    | succ k => simp [List.replicate_succ]
  unfold storeModelName
  rw [List.tail_cons, List.take_of_length_le (length_nameField m).le, hfield, if_neg]
  intro hnil
  exact hne (by simpa using hnil)

/-! ## The two fragments -/

/-- A frame that opens a record. -/
def isFirstFragment (frame : List UInt8) : Bool :=
  isIdentityFragment frame ∧ byteAt frame (18 + 1) = 0x01

/-- The part of the record a fragment carries. -/
def fragmentBody (frame : List UInt8) : List UInt8 :=
  blockBytes frame 9 (byteAt frame (18 + 8)).toNat

theorem isIdentityFragment_closes (h : isIdentityFragment frame = true) :
    checksumVerify frame = true := by
  simp only [isIdentityFragment, decide_eq_true_eq] at h
  exact h.2.2.2.2.2.2.2.2.2.2.2

/-- A fragment is a first or a last one. -/
theorem isIdentityFragment_last (h : isIdentityFragment frame = true)
    (hne : byteAt frame (18 + 1) ≠ 0x01) : byteAt frame (18 + 1) = 0x02 := by
  simp only [isIdentityFragment, decide_eq_true_eq] at h
  exact h.2.2.2.2.1.resolve_left hne

theorem identityFragment_of_not {f : IdentityFrag} (h : isIdentityFragment frame = false) :
    identityFragment f frame = (f, none) := by
  unfold identityFragment
  rw [h]
  rfl

theorem identityFragment_first (f : IdentityFrag) (h : isFirstFragment frame = true) :
    identityFragment f frame =
      ({ src := macAt frame 6, haveFirst := true, buf := fragmentBody frame }, none) := by
  simp only [isFirstFragment, decide_eq_true_eq] at h
  unfold identityFragment
  dsimp only
  rw [h.1, if_neg (by decide), if_pos h.2]
  rfl

/-- A fragment that is no first one closes the record at hand, if there is one from its source. -/
theorem identityFragment_last {f : IdentityFrag} (h : isIdentityFragment frame = true)
    (hlast : byteAt frame (18 + 1) ≠ 0x01) :
    identityFragment f frame = ({ f with haveFirst := false },
      if f.haveFirst = true ∧ f.src = macAt frame 6 ∧ f.buf.length + (fragmentBody frame).length ≤ 64 then
        closeRecord (f.buf ++ fragmentBody frame)
      else none) := by
  have hlen : (fragmentBody frame).length = (byteAt frame (18 + 8)).toNat := by
    simp [fragmentBody, blockBytes]
  unfold identityFragment
  dsimp only
  rw [h, if_neg (by decide), if_neg hlast, hlen]
  by_cases hopen : f.haveFirst = true ∧ f.src = macAt frame 6 ∧
      f.buf.length + (byteAt frame (18 + 8)).toNat ≤ 64
  · obtain ⟨h₁, h₂, h₃⟩ := hopen
    rw [if_neg, if_pos ⟨h₁, h₂, h₃⟩]
    · rfl
    · simp [h₁, h₂]
      omega
  · rw [if_pos, if_neg hopen]
    by_contra hcond
    simp only [not_or, Bool.not_eq_false, Decidable.not_not, not_lt] at hcond
    exact hopen hcond

/-- The frame carries a fragment block of `n` bytes. -/
theorem CarriesBlock.fragment {seg : UInt8} {n : ℕ} (h : CarriesBlock frame (boxTemplate (blockCheck w)))
    (hw : w.length ≤ 31) (hn : 0 < n ∧ 9 + n ≤ w.length) (hseg : seg = 0x01 ∨ seg = 0x02)
    (hhead : ∀ i < 9, i ≠ 2 → i ≠ 3 →
      byteAt w i = byteAt [0x04, seg, 0x00, 0x00, 0x00, 0x02, 0x00, 0xfe, n.toUInt8] i) :
    isIdentityFragment frame = true ∧ byteAt frame (18 + 1) = seg ∧
      fragmentBody frame = (w.drop 9).take n := by
  have hb : ∀ i < 9, i ≠ 2 → i ≠ 3 → byteAt frame (18 + i) =
      byteAt [0x04, seg, 0x00, 0x00, 0x00, 0x02, 0x00, 0xfe, n.toUInt8] i := by
    intro i hi h2 h3
    rw [h.blockAt (by omega), byteAt_blockCheck hw (by omega), hhead i hi h2 h3]
  have hbyte : n.toUInt8.toNat = n := by
    simp
    omega
  have hlen : (byteAt frame (18 + 8)).toNat = n := by
    rw [hb 8 (by omega) (by omega) (by omega)]
    exact hbyte
  have hsum : checksumVerify frame = true :=
    h.closes.mpr (cksumOk_boxTemplate.mpr (byteSum_blockCheck _))
  have h16 := (h.block 0 (by omega)).trans (boxTemplate_type _).1
  have h17 := (h.block 1 (by omega)).trans (boxTemplate_type _).2
  have hseg' := hb 1 (by omega) (by omega) (by omega)
  have hnz : byteAt frame (18 + 8) ≠ 0 := by
    intro hzero
    rw [hzero] at hlen
    simp at hlen
    omega
  refine ⟨?_, hseg', ?_⟩
  · unfold isIdentityFragment
    have h0 := hb 0 (by omega) (by omega) (by omega)
    have h4 := hb 4 (by omega) (by omega) (by omega)
    have h5 := hb 5 (by omega) (by omega) (by omega)
    have h6 := hb 6 (by omega) (by omega) (by omega)
    have h7 := hb 7 (by omega) (by omega) (by omega)
    dsimp only
    refine decide_eq_true ⟨h.long, h16, h17, h0, ?_, h4, h5, h6, h7, hnz, by omega, hsum⟩
    rw [hseg']
    exact hseg
  · unfold fragmentBody
    rw [hlen, h.slice (by omega) (by simp; omega), slice_blockCheck hw (by omega)]

variable {m : BoxRow} {first last : List UInt8}

/-- The frame of the first fragment opens the record with the head and ten bytes of the name. -/
theorem first_fragment (h : CarriesBlock first (boxTemplate (buildIdentFirst m))) :
    isFirstFragment first = true ∧
      fragmentBody first = [0xf0, 0x41, 0x0a, 0x00, 0x00, 0x12, 0x12, 0x05, 0x00, 0x10, 0x00, 0x01] ++
        (nameField m).take 10 := by
  have hlen := length_nameField m
  obtain ⟨hfrag, hseg, hbody⟩ := @CarriesBlock.fragment _ _ 0x01 22 h (by simp [dt1Head, hlen])
    (by simp [dt1Head, hlen]) (.inl rfl) (by
      intro i hi h2 h3
      interval_cases i <;> first | rfl | contradiction)
  refine ⟨?_, ?_⟩
  · simp [isFirstFragment, hfrag, hseg]
  · rw [hbody]
    simp [dt1Head, hlen]
    rfl

/-- The frame of the last one carries the rest of it. -/
theorem last_fragment (h : CarriesBlock last (boxTemplate (buildIdentLast m))) :
    isIdentityFragment last = true ∧ byteAt last (18 + 1) ≠ 0x01 ∧
      fragmentBody last = (nameField m).drop 10 ++
        [dt1Check ([0x05, 0x00, 0x10, 0x00, 0x01] ++ nameField m), 0xf7] := by
  have hlen := length_nameField m
  obtain ⟨hfrag, hseg, hbody⟩ := @CarriesBlock.fragment _ _ 0x02 8 h (by simp [hlen])
    (by simp [hlen]) (.inr rfl) (by
      intro i hi h2 h3
      interval_cases i <;> first | rfl | contradiction)
  refine ⟨hfrag, ?_, ?_⟩
  · rw [hseg]
    decide
  · rw [hbody]
    simp [hlen]

/-! ## Feeding frames -/

/-- The identity pass on one frame: a single record, or a fragment. -/
def identityFeed (st : IdentityFrag × Identity) (frame : List UInt8) : IdentityFrag × Identity :=
  match identityReply frame with
  | some (addrLo, payload) => (st.1, identityIngest st.2 addrLo payload)
  | none =>
    match identityFragment st.1 frame with
    | (f, some (addrLo, payload)) => (f, identityIngest st.2 addrLo payload)
    | (f, none) => (f, st.2)

/-- This is what the pacer does with a frame of its box. -/
theorem rxIdentityPass_feed {p : Pacer} (h : p.fromOurs frame = true) :
    ((rxIdentityPass p frame).rxIdentityFrag, (rxIdentityPass p frame).rxIdentity) =
      identityFeed (p.rxIdentityFrag, p.rxIdentity) frame := by
  unfold rxIdentityPass identityFeed
  rw [h, if_neg (by decide)]
  cases identityReply frame with
  | some r => rfl
  | none =>
    cases hf : identityFragment p.rxIdentityFrag frame with
    | mk f out =>
      cases out with
      | some r => rfl
      | none => rfl

theorem identityFeed_reply {addr : UInt16} {payload : List UInt8} (st : IdentityFrag × Identity)
    (h : identityReply frame = some (addr, payload)) :
    identityFeed st frame = (st.1, identityIngest st.2 addr payload) := by
  rw [identityFeed, h]

theorem identityFeed_fragment (st : IdentityFrag × Identity) (h : identityReply frame = none) :
    identityFeed st frame = ((identityFragment st.1 frame).1,
      (identityFragment st.1 frame).2.elim st.2 fun r => identityIngest st.2 r.1 r.2) := by
  rw [identityFeed, h]
  cases hf : identityFragment st.1 frame with
  | mk f out =>
    cases out with
    | none => rfl
    | some r => rfl

/-- A fragment is no single record. -/
theorem identityReply_fragment (h : isIdentityFragment frame = true) : identityReply frame = none := by
  simp only [isIdentityFragment, decide_eq_true_eq] at h
  obtain ⟨hlong, h16, h17, hlink, hseg, -⟩ := h
  have hkind : (ctrlParse frame).kind ≠ .grant := by
    by_cases hetype : byteAt frame 12 = 0x88 ∧ byteAt frame 13 = 0x19
    · have hself := carriesBlock_self hlong hetype
      have hseg' : byteAt frame 19 ≠ 0x03 := by
        rcases hseg with hseg | hseg
        · exact hseg ▸ by decide
        · exact hseg ▸ by decide
      rw [hself.kind, kind_fragment]
      · decide
      · exact ⟨(hself.block 0 (by omega)).symm.trans h16, (hself.block 1 (by omega)).symm.trans h17,
          (hself.block 2 (by omega)).symm.trans hlink⟩
      · rw [← hself.block 3 (by omega)]
        exact hseg'
    · unfold ctrlParse
      rw [if_pos (by tauto)]
      decide
  unfold identityReply
  dsimp only
  rw [if_pos (.inl hkind)]

/-- A frame that is no fragment leaves the record at hand as it is. -/
theorem identityFeed_other (st : IdentityFrag × Identity) (h : isIdentityFragment frame = false) :
    (identityFeed st frame).1 = st.1 := by
  cases hr : identityReply frame with
  | some r => rw [identityFeed_reply st hr]
  | none => rw [identityFeed_fragment st hr, identityFragment_of_not h]

/-! ## The round trip -/

/-- Four decimal digits are the number they spell. -/
theorem firmwareMilli_digits {v : UInt16} (hv : v ≤ 9999) :
    firmwareMilli [(v / 1000).toUInt8, (v / 100 % 10).toUInt8, (v / 10 % 10).toUInt8,
      (v % 10).toUInt8] = some v := by
  have hnat : v.toNat ≤ 9999 := hv
  have hdigit : ∀ d : UInt16, d.toNat ≤ 9 → d.toUInt8 ≤ 9 ∧ d.toUInt8.toUInt16 = d := by
    intro d hd
    constructor
    · rw [UInt8.le_iff_toNat_le]
      simp
      omega
    · apply UInt16.toNat.inj
      simp
      omega
  obtain ⟨ha, ha'⟩ := hdigit (v / 1000) (by simp; omega)
  obtain ⟨hb, hb'⟩ := hdigit (v / 100 % 10) (by simp; omega)
  obtain ⟨hc, hc'⟩ := hdigit (v / 10 % 10) (by simp; omega)
  obtain ⟨hd, hd'⟩ := hdigit (v % 10) (by simp; omega)
  unfold firmwareMilli
  dsimp only
  rw [if_pos ⟨ha, hb, hc, hd⟩, ha', hb', hc', hd']
  have hhundreds : v.toNat / 100 / 10 = v.toNat / 1000 := by omega
  have htens : v.toNat / 10 / 10 = v.toNat / 100 := by omega
  congr 1
  apply UInt16.toNat.inj
  simp
  omega

/-- The firmware record of a row, fed at any moment. -/
theorem feed_firmware (st : IdentityFrag × Identity) (hblk : buildFirmware m = some blk)
    (h : CarriesBlock frame (boxTemplate blk)) :
    identityFeed st frame = (st.1, { st.2 with fwMilli := m.fwMilli, hasFw := true }) := by
  unfold buildFirmware at hblk
  dsimp only at hblk
  split_ifs at hblk with hbig
  have hv : m.fwMilli ≤ 9999 := UInt16.not_lt.mp hbig
  obtain rfl := Option.some.inj hblk
  rw [identityFeed_reply st (identityReply_dt1Single h (by simp) (by simp)), identityIngest, if_pos rfl,
    firmwareMilli_digits hv]

/-- The version record of a row, fed at any moment. -/
theorem feed_version (st : IdentityFrag × Identity)
    (h : CarriesBlock frame (boxTemplate (buildReacVersion m))) :
    (identityFeed st frame).1 = st.1 ∧
    (identityFeed st frame).2 = { st.2 with
      reacVersionRaw := (identityFeed st frame).2.reacVersionRaw, reacVersionMajor := m.reacMajor
      reacVersionMinor := m.reacMinor, reacVersionPatch := m.reacPatch, hasReacVersion := true } := by
  rw [identityFeed_reply st (identityReply_dt1Single h (by simp) (by simp))]
  refine ⟨rfl, ?_⟩
  have hword : ∀ w : UInt16, u16be (w >>> 8).toUInt8 w.toUInt8 = w := fun w => u16be_eq_iff.mpr ⟨rfl, rfl⟩
  unfold identityIngest
  rw [if_neg (by decide), if_neg (by decide), if_pos rfl, if_neg (by simp)]
  simp only [byteAt, List.getD_cons_succ, List.getD_cons_zero, Nat.reduceAdd, hword]

/-- The name record of a row, whatever else is heard between its two frames. -/
theorem feed_name {name : CString} (hname : m.name = some name) (hne : name.bytes ≠ [])
    (hfirst : CarriesBlock first (boxTemplate (buildIdentFirst m)))
    (hlast : CarriesBlock last (boxTemplate (buildIdentLast m)))
    (hsrc : macAt first 6 = macAt last 6) (others : List (List UInt8))
    (hothers : ∀ o ∈ others, isIdentityFragment o = false) (st : IdentityFrag × Identity) :
    ((first :: others ++ [last]).foldl identityFeed st).2 =
      { (others.foldl identityFeed (identityFeed st first)).2 with
        modelName := name.bytes.take 16, hasModelName := true } := by
  obtain ⟨hisfirst, hbody⟩ := first_fragment hfirst
  obtain ⟨hfrag, hseg, hbody'⟩ := last_fragment hlast
  have hlen := length_nameField m
  have hfirst' : isIdentityFragment first = true := by
    simp only [isFirstFragment, decide_eq_true_eq] at hisfirst
    exact hisfirst.1
  have hkeep : ∀ (os : List (List UInt8)) st, (∀ o ∈ os, isIdentityFragment o = false) →
      (os.foldl identityFeed st).1 = st.1 := by
    intro os
    induction os with
    | nil => exact fun _ _ => rfl
    | cons o os ih =>
      intro st ho
      rw [List.foldl_cons, ih _ fun o' ho' => ho o' (List.mem_cons_of_mem o ho')]
      exact identityFeed_other st (ho o (List.mem_cons_self ..))
  have hheld : (others.foldl identityFeed (identityFeed st first)).1 =
      { src := macAt first 6, haveFirst := true, buf := fragmentBody first } := by
    rw [hkeep others _ hothers, identityFeed_fragment st (identityReply_fragment hfirst'),
      identityFragment_first st.1 hisfirst]
  rw [List.cons_append, List.foldl_cons, List.foldl_append, List.foldl_cons, List.foldl_nil,
    identityFeed_fragment _ (identityReply_fragment hfrag), identityFragment_last hfrag hseg, hheld]
  dsimp only
  rw [if_pos ⟨rfl, hsrc, by rw [hbody, hbody']; simp [hlen]⟩, hbody, hbody']
  have hjoin : [0xf0, 0x41, 0x0a, 0x00, 0x00, 0x12, 0x12, 0x05, 0x00, 0x10, 0x00, 0x01] ++
      (nameField m).take 10 ++ ((nameField m).drop 10 ++
        [dt1Check ([0x05, 0x00, 0x10, 0x00, 0x01] ++ nameField m), 0xf7]) =
      [0xf0, 0x41, 0x0a, 0x00, 0x00, 0x12, 0x12, 0x05, 0x00, 0x10, 0x00, 0x01] ++ nameField m ++
        [dt1Check ([0x05, 0x00, 0x10, 0x00, 0x01] ++ nameField m), 0xf7] := by
    rw [← List.append_assoc, List.append_assoc _ _ (List.drop 10 _), List.take_append_drop]
  rw [hjoin, closeRecord_name hlen, Option.elim_some]
  dsimp only
  rw [identityIngest, if_neg (by decide), if_pos rfl, storeModelName_nameField hname hne]

/-- The first fragment by itself tells nothing. -/
theorem feed_first (st : IdentityFrag × Identity)
    (h : CarriesBlock first (boxTemplate (buildIdentFirst m))) : (identityFeed st first).2 = st.2 := by
  have hisfirst := (first_fragment h).1
  have hfrag : isIdentityFragment first = true := by
    simp only [isFirstFragment, decide_eq_true_eq] at hisfirst
    exact hisfirst.1
  rw [identityFeed_fragment st (identityReply_fragment hfrag), identityFragment_first st.1 hisfirst]
  rfl

/-- Frames that are neither records nor fragments tell nothing. -/
theorem foldl_feed_quiet {os : List (List UInt8)}
    (h : ∀ o ∈ os, isIdentityFragment o = false ∧ identityReply o = none)
    (st : IdentityFrag × Identity) : os.foldl identityFeed st = st := by
  induction os with
  | nil => rfl
  | cons o os ih =>
    obtain ⟨hfrag, hreply⟩ := h o (List.mem_cons_self ..)
    rw [List.foldl_cons, identityFeed_fragment st hreply, identityFragment_of_not hfrag]
    exact ih fun o' ho' => h o' (List.mem_cons_of_mem o ho')

/-! ## Reassembly -/

/-- `reac_ctrl_identity_fragment` on every frame heard. -/
def fragmentMachine : Machine IdentityFrag (List UInt8) (Option (UInt16 × List UInt8)) where
  step f frame := identityFragment f frame

/-- A step of the reassembly. -/
abbrev FragmentEvent := Event IdentityFrag (List UInt8) (Option (UInt16 × List UInt8))

/-- The record handed out on `last` is the one `first` opened. -/
structure Reassembled (first last : List UInt8) (addr : UInt16) (payload : List UInt8) : Prop where
  opens : isFirstFragment first = true
  closes : isIdentityFragment last = true ∧ byteAt last (18 + 1) = 0x02
  source : macAt first 6 = macAt last 6
  etype : isReac first = true ∧ isReac last = true
  block : checksumVerify first = true ∧ checksumVerify last = true
  record : closeRecord (fragmentBody first ++ fragmentBody last) = some (addr, payload)
  inner : recordCksumVerify (fun i => byteAt (fragmentBody first ++ fragmentBody last) (7 + i))
    ((fragmentBody first ++ fragmentBody last).length - 8) = true

/-- Whatever the reassembly hands out over these frames is the last first fragment before it and the
frame that closes it, with no fragment in between. -/
def FragmentSound (frames : List (List UInt8)) : Prop :=
  ∀ log (e : FragmentEvent) addr payload, fragmentMachine.StepOf {} frames log e →
    e.out = some (addr, payload) →
    ∃ before opening between, log = before ++ opening :: between ∧
      (∀ x ∈ between, isIdentityFragment x.input = false) ∧
      Reassembled opening.input e.input addr payload

/-- The fragment at hand is the last first fragment heard, and none has been heard since. -/
def Holding (log : List FragmentEvent) (f : IdentityFrag) : Prop :=
  f.haveFirst = true → ∃ before opening between, log = before ++ opening :: between ∧
    (∀ x ∈ between, isIdentityFragment x.input = false) ∧ isFirstFragment opening.input = true ∧
    f.src = macAt opening.input 6 ∧ f.buf = fragmentBody opening.input

theorem Holding.step {log : List FragmentEvent} {f : IdentityFrag} (h : Holding log f)
    (frame : List UInt8) :
    Holding (log ++ [fragmentMachine.event f frame]) (fragmentMachine.step f frame).1 := by
  show Holding _ (identityFragment f frame).1
  cases hfrag : isIdentityFragment frame with
  | false =>
    rw [identityFragment_of_not hfrag]
    intro hhave
    obtain ⟨before, opening, between, rfl, hbetween, hopen, hsrc, hbuf⟩ := h hhave
    refine ⟨before, opening, between ++ [fragmentMachine.event f frame], by simp, ?_, hopen, hsrc, hbuf⟩
    intro x hx
    rcases List.mem_append.mp hx with hx | hx
    · exact hbetween x hx
    · rw [List.mem_singleton.mp hx]
      exact hfrag
  | true =>
    by_cases hseg : byteAt frame (18 + 1) = 0x01
    · have hfirst : isFirstFragment frame = true := by
        simp only [isFirstFragment, hfrag, hseg, and_self, decide_true]
      rw [identityFragment_first f hfirst]
      intro _
      exact ⟨log, fragmentMachine.event f frame, [], rfl, by simp, hfirst, rfl, rfl⟩
    · rw [identityFragment_last hfrag hseg]
      intro hhave
      cases hhave

theorem closeRecord_checksum {r : List UInt8} {addr : UInt16} {payload : List UInt8}
    (h : closeRecord r = some (addr, payload)) :
    recordCksumVerify (fun i => byteAt r (7 + i)) (r.length - 8) = true := by
  unfold closeRecord at h
  dsimp only at h
  split_ifs at h with hhead hck
  simpa using hck

theorem fragmentSound {frames : List (List UInt8)}
    (hreac : ∀ frame ∈ frames, isIdentityFragment frame = true → isReac frame = true) :
    FragmentSound frames := by
  intro log e addr payload he hout
  have hhold : Holding log e.pre ∧ e = fragmentMachine.event e.pre e.input :=
    Machine.trace_invariant_at (L := fun _ _ => True) fragmentMachine (H := Holding)
      (fun h => by cases h) (fun log f frame h _ => h.step frame) (fun _ _ _ => trivial) he
  obtain ⟨hhold, heq⟩ := hhold
  have hstep : (identityFragment e.pre e.input).2 = some (addr, payload) := by
    rw [← hout, heq]
    rfl
  have hmem := he.input_mem fragmentMachine
  cases hfrag : isIdentityFragment e.input with
  | false =>
    rw [identityFragment_of_not hfrag] at hstep
    cases hstep
  | true =>
    by_cases hseg : byteAt e.input (18 + 1) = 0x01
    · have hfirst : isFirstFragment e.input = true := by
        simp only [isFirstFragment, hfrag, hseg, and_self, decide_true]
      rw [identityFragment_first _ hfirst] at hstep
      cases hstep
    · rw [identityFragment_last hfrag hseg] at hstep
      dsimp only at hstep
      split_ifs at hstep with hopen
      obtain ⟨hhave, hsrc, -⟩ := hopen
      obtain ⟨before, opening, between, rfl, hbetween, hfirst, hsrc', hbuf⟩ := hhold hhave
      rw [hbuf] at hstep
      have hopening : isIdentityFragment opening.input = true := by
        simp only [isFirstFragment, decide_eq_true_eq] at hfirst
        exact hfirst.1
      have hheard : opening.input ∈ frames := he.log_input_mem fragmentMachine (by simp)
      refine ⟨before, opening, between, rfl, hbetween, ?_⟩
      exact
        { opens := hfirst
          closes := ⟨hfrag, isIdentityFragment_last hfrag hseg⟩
          source := hsrc'.symm.trans hsrc
          etype := ⟨hreac _ hheard hopening, hreac _ hmem hfrag⟩
          block := ⟨isIdentityFragment_closes hopening, isIdentityFragment_closes hfrag⟩
          record := hstep
          inner := closeRecord_checksum hstep }

/-- The identity page a row synthesises is read back, and no record is assembled but from the last
first fragment and the one that closes it, where every fragment that is heard is a REAC frame. -/
theorem identity_page (m : BoxRow) (name : CString) (hfw : m.fwMilli ≤ 9999)
    (hname : m.name = some name) (hne : name.bytes ≠ []) (frames : List (List UInt8))
    (hreac : ∀ frame ∈ frames, isIdentityFragment frame = true → isReac frame = true) :
    (∃ fwBlk, buildFirmware m = some fwBlk ∧ ∀ fw ver first last : List UInt8,
      CarriesBlock fw (boxTemplate fwBlk) → CarriesBlock ver (boxTemplate (buildReacVersion m)) →
      CarriesBlock first (boxTemplate (buildIdentFirst m)) →
      CarriesBlock last (boxTemplate (buildIdentLast m)) → macAt first 6 = macAt last 6 →
      ∀ st : IdentityFrag × Identity,
        ((identityFeed st fw).2.fwMilli = m.fwMilli ∧ (identityFeed st fw).2.hasFw = true) ∧
        ((identityFeed st ver).2.reacVersionMajor = m.reacMajor ∧
          (identityFeed st ver).2.reacVersionMinor = m.reacMinor ∧
          (identityFeed st ver).2.reacVersionPatch = m.reacPatch ∧
          (identityFeed st ver).2.hasReacVersion = true) ∧
        (∀ others : List (List UInt8), (∀ o ∈ others, isIdentityFragment o = false) →
          ((first :: others ++ [last]).foldl identityFeed st).2.modelName = name.bytes.take 16 ∧
          ((first :: others ++ [last]).foldl identityFeed st).2.hasModelName = true) ∧
        ∀ o₁ o₂ o₃ : List (List UInt8),
          (∀ o ∈ o₁ ++ o₂ ++ o₃, isIdentityFragment o = false ∧ identityReply o = none) →
          ∃ raw, ((fw :: o₁ ++ ver :: o₂ ++ first :: o₃ ++ [last]).foldl identityFeed st).2 =
            { fwMilli := m.fwMilli, hasFw := true, modelName := name.bytes.take 16
              hasModelName := true, reacVersionMajor := m.reacMajor, reacVersionMinor := m.reacMinor
              reacVersionPatch := m.reacPatch, reacVersionRaw := raw, hasReacVersion := true }) ∧
    FragmentSound frames := by
  refine ⟨?_, fragmentSound hreac⟩
  have hbuilt : ∃ blk, buildFirmware m = some blk := by
    unfold buildFirmware
    dsimp only
    rw [if_neg (UInt16.not_lt.mpr hfw)]
    exact ⟨_, rfl⟩
  obtain ⟨fwBlk, hblk⟩ := hbuilt
  refine ⟨fwBlk, hblk, ?_⟩
  intro fw ver first last hcfw hcver hcfirst hclast hsrc st
  have hver : ∀ st : IdentityFrag × Identity, (identityFeed st ver).2.reacVersionMajor = m.reacMajor ∧
      (identityFeed st ver).2.reacVersionMinor = m.reacMinor ∧
      (identityFeed st ver).2.reacVersionPatch = m.reacPatch ∧
      (identityFeed st ver).2.hasReacVersion = true := by
    intro st
    rw [(feed_version st hcver).2]
    exact ⟨rfl, rfl, rfl, rfl⟩
  refine ⟨?_, hver st, ?_, ?_⟩
  · rw [feed_firmware st hblk hcfw]
    exact ⟨rfl, rfl⟩
  · intro others hothers
    rw [feed_name hname hne hcfirst hclast hsrc others hothers st]
    exact ⟨rfl, rfl⟩
  · intro o₁ o₂ o₃ hothers
    have hquiet : ∀ os ⊆ o₁ ++ o₂ ++ o₃, ∀ st, os.foldl identityFeed st = st := by
      intro os hos
      exact foldl_feed_quiet fun o ho => hothers o (hos ho)
    have hfirst : ∀ st, (identityFeed st first).2 = st.2 := fun st => feed_first st hcfirst
    have hfold : (fw :: o₁ ++ ver :: o₂ ++ first :: o₃ ++ [last]).foldl identityFeed st =
        (first :: o₃ ++ [last]).foldl identityFeed
          (o₂.foldl identityFeed (identityFeed (o₁.foldl identityFeed (identityFeed st fw)) ver)) := by
      simp only [List.cons_append, List.append_assoc, List.foldl_cons, List.foldl_append, List.foldl_nil]
    rw [hfold, hquiet o₁ (by simp), hquiet o₂ (by simp),
      feed_name hname hne hcfirst hclast hsrc o₃ (by
        intro o ho
        exact (hothers o (by simp [ho])).1), hquiet o₃ (by simp), hfirst, (feed_version _ hcver).2,
      feed_firmware st hblk hcfw]
    exact ⟨_, rfl⟩

/-- The frame of a block under another EtherType. -/
def foreignFrame (blk : List UInt8) : List UInt8 :=
  List.replicate 12 0 ++ [0x08, 0x00, 0x00, 0x00, 0xcd, 0xea] ++ blk

theorem FragmentSound.pair {addr : UInt16} {payload : List UInt8} (h : FragmentSound [first, last])
    (hout : (identityFragment (identityFragment {} first).1 last).2 = some (addr, payload)) :
    isReac last = true := by
  obtain ⟨_, _, _, _, _, hre⟩ := h (fragmentMachine.trace {} [first])
    (fragmentMachine.event (fragmentMachine.run {} [first]) last) addr payload
    (fragmentMachine.stepOf_last {} [first] last) hout
  exact hre.etype.2

/-- The two fragments of the name are joined under the EtherType of IP as well. -/
theorem identity_fragments_any_etype :
    ¬ FragmentSound [foreignFrame (buildIdentFirst rowS0808), foreignFrame (buildIdentLast rowS0808)] := by
  intro hsound
  have hout : (identityFragment (identityFragment {} (foreignFrame (buildIdentFirst rowS0808))).1
      (foreignFrame (buildIdentLast rowS0808))).2 = some (0x1000, 0x01 :: nameField rowS0808) := by
    decide +kernel
  have hetype : isReac (foreignFrame (buildIdentLast rowS0808)) = false := by decide +kernel
  rw [hsound.pair hout] at hetype
  cases hetype

/-- A frame of the S-0808 to some master. -/
def frameS0808 (blk : List UInt8) : List UInt8 :=
  ctrlHdr noMac (Vector.replicate 6 0x40) 7 ++ blk ++ [0xc2, 0xea]

/-- An S-0808 is read back, with a filler between the halves of its name. -/
theorem identity_page_s0808 :
    (∃ fwBlk, buildFirmware rowS0808 = some fwBlk ∧
      (identityFeed ({}, {}) (frameS0808 fwBlk)).2.fwMilli = 2200) ∧
    ((frameS0808 (buildIdentFirst rowS0808) :: [List.replicate 60 0] ++
      [frameS0808 (buildIdentLast rowS0808)]).foldl identityFeed ({}, {})).2.modelName =
        [0x53, 0x2d, 0x30, 0x38, 0x30, 0x38] ∧
    FragmentSound [frameS0808 (buildIdentFirst rowS0808), List.replicate 60 0,
      frameS0808 (buildIdentLast rowS0808)] := by
  have hcarries : ∀ blk : List UInt8, blk.length = 32 → CarriesBlock (frameS0808 blk) (boxTemplate blk) :=
    fun blk h => carriesBlock_ctrlHdr _ _ _ h _
  obtain ⟨⟨fwBlk, hblk, hread⟩, hsound⟩ := identity_page rowS0808 _ (by decide) rfl (by decide)
    [frameS0808 (buildIdentFirst rowS0808), List.replicate 60 0, frameS0808 (buildIdentLast rowS0808)]
    (by decide +kernel)
  have hlen : fwBlk.length = 32 := by
    obtain rfl := Option.some.inj hblk
    decide +kernel
  obtain ⟨hfw, -, hname, -⟩ := hread _ _ _ _ (hcarries fwBlk hlen)
    (hcarries _ (length_blockCheck _)) (hcarries _ (length_blockCheck _))
    (hcarries _ (length_blockCheck _)) (by decide +kernel) ({}, {})
  exact ⟨⟨fwBlk, hblk, hfw.1⟩, (hname [List.replicate 60 0] (by decide +kernel)).1, hsound⟩

end Libreac
