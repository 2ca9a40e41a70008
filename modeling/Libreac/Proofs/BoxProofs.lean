import Mathlib.Tactic.IntervalCases
import Libreac.BoxSynth
import Libreac.Proofs.BraidProofs
import Libreac.Proofs.CtrlProofs

/-!
# Proofs: the frames a box sends

A generated block has 32 bytes and closes. What the master makes of a frame is read off the block it
carries, so the claims about a built frame need its block alone.
-/

namespace Libreac

variable {frame blk w : List UInt8}

/-! ## Blocks -/

theorem length_pad (w : List UInt8) : ((w ++ List.replicate 31 0).take 31).length = 31 := by
  simp

@[simp] theorem length_blockCheck (w : List UInt8) : (blockCheck w).length = 32 := by
  rw [blockCheck, List.length_append, length_pad]
  rfl

theorem byteAt_append_left {l r : List UInt8} {i : ℕ} (h : i < l.length) :
    byteAt (l ++ r) i = byteAt l i := by
  unfold byteAt
  rw [List.getD_eq_getElem?_getD, List.getElem?_append_left h, List.getD_eq_getElem?_getD]

theorem byteAt_append_right {l r : List UInt8} {i : ℕ} (h : l.length ≤ i) :
    byteAt (l ++ r) i = byteAt r (i - l.length) := by
  unfold byteAt
  rw [List.getD_eq_getElem?_getD, List.getElem?_append_right h, List.getD_eq_getElem?_getD]

/-- The bytes a generator wrote are those of the block. -/
theorem byteAt_blockCheck (hw : w.length ≤ 31) {i : ℕ} (hi : i < 31) :
    byteAt (blockCheck w) i = byteAt w i := by
  unfold blockCheck
  rw [byteAt_append_left (by rw [length_pad]; exact hi)]
  unfold byteAt
  rw [List.getD_eq_getElem?_getD, List.getElem?_take_of_lt hi, List.getD_eq_getElem?_getD]
  by_cases hlt : i < w.length
  · rw [List.getElem?_append_left hlt]
  · rw [List.getElem?_append_right (by omega), List.getElem?_eq_none_iff.mpr (by omega : w.length ≤ i),
      List.getElem?_replicate_of_lt (by omega)]
    rfl

theorem slice_blockCheck {off n : ℕ} (hw : w.length ≤ 31) (hn : off + n ≤ w.length) :
    ((blockCheck w).drop off).take n = (w.drop off).take n := by
  apply List.ext_getElem
  · simp
    omega
  · intro i hi _
    rw [List.length_take, List.length_drop, length_blockCheck] at hi
    have hat := byteAt_blockCheck hw (show off + i < 31 by omega)
    unfold byteAt at hat
    rw [List.getD_eq_getElem?_getD, List.getD_eq_getElem?_getD, List.getElem?_eq_getElem (by simp; omega),
      List.getElem?_eq_getElem (by omega)] at hat
    simpa using hat

/-- A block with its check byte sums to zero. -/
theorem byteSum_closed {b : List UInt8} (h : b.length = 31) :
    byteSum (byteAt (b ++ [0 - byteSum (byteAt b) 31])) 32 = 0 := by
  have hsum : byteSum (byteAt (b ++ [0 - byteSum (byteAt b) 31])) 31 = byteSum (byteAt b) 31 :=
    byteSum_congr fun i hi => byteAt_append_left (by omega)
  have hlast : byteAt (b ++ [0 - byteSum (byteAt b) 31]) 31 = 0 - byteSum (byteAt b) 31 := by
    rw [byteAt_append_right (by omega), h]
    rfl
  rw [byteSum, hsum, hlast, UInt8.zero_sub, UInt8.add_right_neg]

theorem byteSum_blockCheck (w : List UInt8) : byteSum (byteAt (blockCheck w)) 32 = 0 :=
  byteSum_closed (length_pad w)

/-- The template of a block under the type word `cd ea`. -/
def boxTemplate (blk : List UInt8) : Template := Vector.ofFn fun i => byteAt (0xcd :: 0xea :: blk) i

theorem byte_boxTemplate (blk : List UInt8) {i : ℕ} (hi : i < 34) :
    (boxTemplate blk).byte i = byteAt (0xcd :: 0xea :: blk) i := byte_ofFn _ hi

/-- Byte `i` of the block, behind the type word. -/
theorem byte_boxTemplate_block (blk : List UInt8) {i : ℕ} (hi : i < 32) :
    (boxTemplate blk).byte (2 + i) = byteAt blk i := by
  rw [byte_boxTemplate blk (by omega), Nat.add_comm]
  rfl

theorem boxTemplate_type (blk : List UInt8) :
    (boxTemplate blk).byte 0 = 0xcd ∧ (boxTemplate blk).byte 1 = 0xea := by
  rw [byte_boxTemplate blk (by omega), byte_boxTemplate blk (by omega)]
  exact ⟨rfl, rfl⟩

theorem cksumOk_boxTemplate : (boxTemplate blk).cksumOk ↔ byteSum (byteAt blk) 32 = 0 := by
  unfold Template.cksumOk
  rw [byteSum_congr fun i hi => byte_boxTemplate_block blk hi]

/-- The bytes of the control block of a frame that carries `blk`. -/
theorem CarriesBlock.blockAt (h : CarriesBlock frame (boxTemplate blk)) {i : ℕ} (hi : i < 32) :
    byteAt frame (18 + i) = byteAt blk i := by
  rw [h.byte hi, byte_boxTemplate_block blk hi]

/-- A frame that carries a single record of another tag than the head-amp one. -/
theorem CarriesBlock.record (h : CarriesBlock frame (boxTemplate blk)) (hlink : byteAt blk 0 = 0x04)
    (hseg : byteAt blk 1 = 0x03) (htag : ¬ (byteAt blk 16 = 0x01 ∧ byteAt blk 17 = 0x01)) :
    (ctrlParse frame).kind = .grant ∧
      (ctrlParse frame).dt1Tag = u16be (byteAt blk 16) (byteAt blk 17) := by
  obtain ⟨h0, h1⟩ := boxTemplate_type blk
  have h2 := (byte_boxTemplate_block blk (show 0 < 32 by omega)).trans hlink
  have h3 := (byte_boxTemplate_block blk (show 1 < 32 by omega)).trans hseg
  have h18 := byte_boxTemplate_block blk (show 16 < 32 by omega)
  have h19 := byte_boxTemplate_block blk (show 17 < 32 by omega)
  rw [h.kind, h.tag ⟨h0, h1, h2, h3⟩, ← h18, ← h19]
  rw [← h18, ← h19] at htag
  exact ⟨kind_grant ⟨h0, h1, h2, h3⟩ htag, rfl⟩

theorem CarriesBlock.slice (h : CarriesBlock frame (boxTemplate blk)) {off n : ℕ}
    (hn : off + n ≤ 32) (hlen : off + n ≤ blk.length) :
    blockBytes frame off n = (blk.drop off).take n := by
  apply List.ext_getElem
  · simp [blockBytes]
    omega
  · intro i hi _
    simp only [blockBytes, List.length_map, List.length_range] at hi
    have hb := h.blockAt (show off + i < 32 by omega)
    simp only [blockBytes, List.getElem_map, List.getElem_range, List.getElem_take,
      List.getElem_drop, Nat.add_assoc, hb]
    unfold byteAt
    rw [List.getD_eq_getElem?_getD, List.getElem?_eq_getElem (by omega), Option.getD_some]

/-! ## Frames -/

theorem length_ctrlHdr (dst src : Mac) (counter : UInt16) : (ctrlHdr dst src counter).length = 18 := by
  simp [ctrlHdr]

/-- A block behind the header is the one the frame carries. -/
theorem carriesBlock_ctrlHdr (dst src : Mac) (counter : UInt16) (hblk : blk.length = 32)
    (rest : List UInt8) : CarriesBlock (ctrlHdr dst src counter ++ blk ++ rest) (boxTemplate blk) := by
  have hhdr := length_ctrlHdr dst src counter
  have hhead : ∀ i < 18, byteAt (ctrlHdr dst src counter ++ blk ++ rest) i =
      byteAt (ctrlHdr dst src counter) i := by
    intro i hi
    rw [List.append_assoc, byteAt_append_left (by omega)]
  have htype : byteAt (ctrlHdr dst src counter) 12 = 0x88 ∧ byteAt (ctrlHdr dst src counter) 13 = 0x19 ∧
      byteAt (ctrlHdr dst src counter) 16 = 0xcd ∧ byteAt (ctrlHdr dst src counter) 17 = 0xea := by
    simp [byteAt, ctrlHdr]
  refine ⟨?_, ?_, ?_⟩
  · simp [hhdr, hblk]
    omega
  · rw [hhead 12 (by omega), hhead 13 (by omega)]
    exact ⟨htype.1, htype.2.1⟩
  · intro i hi
    rcases Nat.lt_or_ge i 2 with h2 | h2
    · rw [hhead _ (by omega), byte_boxTemplate blk hi]
      interval_cases i
      · exact htype.2.2.1
      · exact htype.2.2.2
    · obtain ⟨j, rfl⟩ : ∃ j, i = 2 + j := ⟨i - 2, by omega⟩
      rw [byte_boxTemplate_block blk (by omega), byteAt_append_left (by simp [hhdr]; omega),
        byteAt_append_right (by omega), hhdr]
      congr 1
      omega

theorem macAt_ctrlHdr (dst src : Mac) (counter : UInt16) (rest : List UInt8) :
    macAt (ctrlHdr dst src counter ++ rest) 0 = dst ∧
      macAt (ctrlHdr dst src counter ++ rest) 6 = src := by
  have hdst : ∀ i < 6, byteAt (ctrlHdr dst src counter ++ rest) i = dst.toList.getD i 0 := by
    intro i hi
    rw [byteAt_append_left (by rw [length_ctrlHdr]; omega), ctrlHdr, List.append_assoc,
      byteAt_append_left (by simp; omega)]
    rfl
  have hsrc : ∀ i < 6, byteAt (ctrlHdr dst src counter ++ rest) (6 + i) = src.toList.getD i 0 := by
    intro i hi
    rw [byteAt_append_left (by rw [length_ctrlHdr]; omega), ctrlHdr,
      byteAt_append_left (by simp; omega), byteAt_append_right (by simp)]
    simp [byteAt]
  constructor
  · ext i hi
    rw [macAt, Vector.getElem_ofFn, Nat.zero_add, hdst i hi]
    simp [hi]
  · ext i hi
    rw [macAt, Vector.getElem_ofFn, hsrc i hi]
    simp [hi]

/-! ## What the generator makes -/

/-- The facts of the row make no such block: the twelve slots do not hold the geometry, or the
firmware has more than four digits. -/
def BoxRow.refuses (m : BoxRow) : BoxBlock → Bool
  | .config => m.inCh % 4 ≠ 0 ∨ m.outCh % 4 ≠ 0 ∨ 12 < m.inCh / 4 + m.outCh / 4
  | .cc0016 => 9999 < m.fwMilli
  | _ => false

variable {m : BoxRow} {b : BoxBlock}

/-- The twelve slot codes a row declares. -/
def configPorts (m : BoxRow) : List UInt8 :=
  let ins := (m.inCh / 4).toNat
  let outs := (m.outCh / 4).toNat
  (if m.splitOutFirst then List.replicate outs 0x01 ++ List.replicate ins 0x00
    else List.replicate ins 0x02 ++ List.replicate outs 0x01) ++ List.replicate (12 - (ins + outs)) 0x03

/-- The bytes of a declaration in front of its check byte. -/
def configBytes (m : BoxRow) : List UInt8 :=
  [0x01, 0x03, 0x00, 0x10, m.selector, 0x00, 0x00, m.headampStrap] ++ configPorts m ++ m.tail.toList

theorem rowConfig_eq (hpos : 0 ≤ m.inCh ∧ 0 ≤ m.outCh) :
    rowConfig m = if m.refuses .config then none else some (blockCheck (configBytes m)) := by
  have hslots : (12 < (m.inCh / 4).toNat + (m.outCh / 4).toNat) ↔ 12 < m.inCh / 4 + m.outCh / 4 := by
    omega
  have hrefuses : m.refuses .config = true ↔
      m.inCh % 4 ≠ 0 ∨ m.outCh % 4 ≠ 0 ∨ 12 < m.inCh / 4 + m.outCh / 4 := decide_eq_true_iff
  unfold rowConfig
  rw [if_neg (by omega)]
  by_cases hmod : m.inCh % 4 ≠ 0 ∨ m.outCh % 4 ≠ 0
  · rw [if_pos hmod, if_pos (hrefuses.mpr (by tauto))]
  · rw [if_neg hmod]
    dsimp only
    by_cases hbig : 12 < m.inCh / 4 + m.outCh / 4
    · rw [if_pos (hslots.mpr hbig), if_pos (hrefuses.mpr (by tauto))]
    · have hno : ¬ m.refuses .config = true := by
        rw [hrefuses]
        tauto
      rw [if_neg (hslots.not.mpr hbig), if_neg hno]
      simp only [configBytes, configPorts, List.append_assoc]

/-- A row of the catalogue as a row of facts. -/
def BoxModel.row (m : BoxModel) (h : m.tail.length = 11) : BoxRow where
  inCh := m.inCh
  outCh := m.outCh
  selector := m.selector
  headampStrap := m.headampStrap
  tail := ⟨m.tail.toArray, h⟩
  splitOutFirst := m.splitOutFirst

theorem byteSum_eq_sum (l : List UInt8) : byteSum (byteAt l) l.length = l.sum := by
  induction l using List.reverseRecOn with
  | nil => rfl
  | append_singleton l c ih =>
    have hsum : byteSum (byteAt (l ++ [c])) l.length = byteSum (byteAt l) l.length :=
      byteSum_congr fun i hi => byteAt_append_left hi
    have hlast : byteAt (l ++ [c]) l.length = c := by
      rw [byteAt_append_right le_rfl, Nat.sub_self]
      rfl
    rw [List.length_append, List.length_singleton, byteSum, hsum, ih, hlast, List.sum_append,
      List.sum_singleton]

/-- The catalogue is matched against the declarations that the rows make. -/
theorem rowConfig_row (c : BoxModel) (h : c.tail.length = 11) : rowConfig (c.row h) = buildConfig c := by
  have hpos : 0 ≤ (c.row h).inCh ∧ 0 ≤ (c.row h).outCh :=
    ⟨Int.natCast_nonneg _, Int.natCast_nonneg _⟩
  have hrefuses : (c.row h).refuses .config = true ↔
      c.inCh % 4 ≠ 0 ∨ c.outCh % 4 ≠ 0 ∨ 12 < c.inCh / 4 + c.outCh / 4 := by
    rw [BoxRow.refuses, decide_eq_true_iff]
    simp only [BoxModel.row]
    omega
  rw [rowConfig_eq hpos, buildConfig]
  dsimp only
  by_cases hbad : c.inCh % 4 ≠ 0 ∨ c.outCh % 4 ≠ 0 ∨ 12 < c.inCh / 4 + c.outCh / 4
  · rw [if_pos hbad, if_pos (hrefuses.mpr hbad)]
  · rw [if_neg hbad, if_neg (hrefuses.not.mpr hbad)]
    have hin : ((c.inCh : ℤ) / 4).toNat = c.inCh / 4 := by omega
    have hout : ((c.outCh : ℤ) / 4).toNat = c.outCh / 4 := by omega
    have hbytes : configBytes (c.row h) = [0x01, 0x03, 0x00, 0x10, c.selector, 0x00, 0x00, c.headampStrap] ++
        (if c.splitOutFirst then List.replicate (c.outCh / 4) 0x01 ++ List.replicate (c.inCh / 4) 0x00
          else List.replicate (c.inCh / 4) 0x02 ++ List.replicate (c.outCh / 4) 0x01) ++
        List.replicate (12 - (c.inCh / 4 + c.outCh / 4)) 0x03 ++ c.tail := by
      simp only [configBytes, configPorts, BoxModel.row, hin, hout, List.append_assoc]
      rfl
    have hlen : (configBytes (c.row h)).length = 31 := by
      rw [hbytes]
      split_ifs <;> simp [h] <;> omega
    rw [← hbytes, blockCheck]
    have htake : (configBytes (c.row h) ++ List.replicate 31 0).take 31 = configBytes (c.row h) := by
      rw [List.take_append_of_le_length (by omega), List.take_of_length_le (by omega)]
    rw [htake, ← byteSum_eq_sum, hlen]

theorem boxCatalogue_distinct : (boxCatalogue.map buildConfig).Nodup := by decide +kernel

/-- No two rows of the catalogue declare the same: the declaration a row makes is recognised as its
own. -/
theorem boxCatalogueMatch_row {k : ℕ} {c : BoxModel} (hc : boxCatalogue[k]? = some c)
    (h : c.tail.length = 11) {frame : List UInt8} (hkind : (ctrlParse frame).kind = .configAnnounce)
    (hblk : rowConfig (c.row h) = some (blockBytes frame 0 32)) :
    boxCatalogueMatch frame = some k := by
  rw [rowConfig_row] at hblk
  obtain ⟨hk, rfl⟩ := List.getElem?_eq_some_iff.mp hc
  rw [boxCatalogueMatch, if_neg (by simp [hkind]), List.findIdx?_eq_some_iff_getElem]
  refine ⟨hk, decide_eq_true hblk, ?_⟩
  intro j hj hmatch
  have hsame : (boxCatalogue.map buildConfig)[j]? = (boxCatalogue.map buildConfig)[k]? := by
    rw [List.getElem?_map, List.getElem?_map, List.getElem?_eq_getElem (hj.trans hk),
      List.getElem?_eq_getElem hk, Option.map_some, Option.map_some, of_decide_eq_true hmatch, hblk]
  have hlt : j < (boxCatalogue.map buildConfig).length := by
    rw [List.length_map]
    exact hj.trans hk
  exact absurd ((List.getElem?_inj hlt boxCatalogue_distinct).mp hsame) hj.ne

theorem length_configPorts (h : m.refuses .config = false) (hpos : 0 ≤ m.inCh ∧ 0 ≤ m.outCh) :
    (configPorts m).length = 12 := by
  simp only [BoxRow.refuses, decide_eq_false_iff_not, not_or] at h
  unfold configPorts
  split_ifs <;> simp <;> omega

theorem boxModelBlock_refuses (hpos : 0 ≤ m.inCh ∧ 0 ≤ m.outCh) (h : m.refuses b = true) :
    boxModelBlock m b = .refused := by
  cases b with
  | config =>
    rw [boxModelBlock, rowConfig_eq hpos, if_pos h]
    rfl
  | cc0016 =>
    have hbig : 9999 < m.fwMilli := of_decide_eq_true h
    simp only [boxModelBlock, buildFirmware, hbig, if_true]
    rfl
  | cc0014 | cc0013 | cc001a | identFirst | identLast => cases h

theorem boxModelBlock_absent (hgate : (ctrlFrameOf b).gateHasIdentity = true)
    (hno : m.hasIdentityRecord = false) : boxModelBlock m b = .absent := by
  cases b with
  | identFirst | identLast =>
    rw [boxModelBlock, hno]
    rfl
  | config | cc0014 | cc0013 | cc0016 | cc001a => cases hgate

/-- Where the facts of the row do not stand in the way, the block is built; it has 32 bytes and
closes. -/
theorem boxModelBlock_built (hpos : 0 ≤ m.inCh ∧ 0 ≤ m.outCh) (h : m.refuses b = false)
    (hgate : (ctrlFrameOf b).gateHasIdentity = true → m.hasIdentityRecord = true) :
    ∃ blk, boxModelBlock m b = .built blk ∧ blk.length = 32 ∧ byteSum (byteAt blk) 32 = 0 := by
  have hcheck : ∀ w, (blockCheck w).length = 32 ∧ byteSum (byteAt (blockCheck w)) 32 = 0 :=
    fun w => ⟨length_blockCheck w, byteSum_blockCheck w⟩
  cases b with
  | config =>
    rw [boxModelBlock, rowConfig_eq hpos, if_neg (by rw [h]; decide)]
    exact ⟨_, rfl, hcheck _⟩
  | cc0014 => exact ⟨join0014, rfl, by decide, by decide⟩
  | cc0013 => exact ⟨join0013, rfl, by decide, by decide⟩
  | cc0016 =>
    have hsmall : ¬ 9999 < m.fwMilli := of_decide_eq_false h
    simp only [boxModelBlock, buildFirmware, hsmall, if_false]
    exact ⟨_, rfl, hcheck _⟩
  | cc001a => exact ⟨_, rfl, hcheck _⟩
  | identFirst =>
    rw [boxModelBlock, hgate rfl]
    exact ⟨_, rfl, hcheck _⟩
  | identLast =>
    rw [boxModelBlock, hgate rfl]
    exact ⟨_, rfl, hcheck _⟩

/-- A legal width has legal counts. -/
theorem counts_of_width (h : boxWidthOk (upstreamWidth m) = true) : 0 ≤ m.inCh ∧ 0 ≤ m.outCh := by
  by_contra hneg
  rw [upstreamWidth, if_pos (by omega)] at h
  cases h

/-- Stamping the checksum of a block that closes changes nothing. -/
theorem ctrlFinish_closed (f : CtrlFrame) (hlen : blk.length = 32) (hsum : byteSum (byteAt blk) 32 = 0) :
    ctrlFinish f blk = blk := by
  unfold ctrlFinish
  split_ifs with hf
  · have hlast : 0 - byteSum (byteAt blk) 31 = byteAt blk 31 := by
      rw [byteSum] at hsum
      rw [← hsum, UInt8.add_comm, UInt8.add_sub_cancel]
    rw [hlast]
    apply List.ext_getElem
    · simp [hlen]
    · intro i hi hi'
      by_cases h31 : i < 31
      · rw [List.getElem_append_left (by simp; omega), List.getElem_take]
      · obtain rfl : i = 31 := by omega
        rw [List.getElem_append_right (by simp [hlen])]
        simp [byteAt, hlen]
  · rfl

/-! ## What the master reads -/

/-- An address of the vendor whose frames the classifier takes. -/
def rolandMac (src : Mac) : Prop := src.toList.take 3 = [0x00, 0x40, 0xab]

instance (src : Mac) : Decidable (rolandMac src) := inferInstanceAs (Decidable (_ = _))

theorem rolandMac.bytes {src : Mac} (h : rolandMac src) :
    src[0]? = some 0x00 ∧ src[1]? = some 0x40 ∧ src[2]? = some 0xab := by
  have hat : ∀ i < 3, src[i]? = ([0x00, 0x40, 0xab] : List UInt8)[i]? := by
    intro i hi
    unfold rolandMac at h
    rw [← h, List.getElem?_take_of_lt hi]
    simp
  exact ⟨hat 0 (by omega), hat 1 (by omega), hat 2 (by omega)⟩

theorem byte_boxTemplate_head (blk : List UInt8) :
    (boxTemplate blk).byte 2 = byteAt blk 0 ∧ (boxTemplate blk).byte 3 = byteAt blk 1 ∧
      (boxTemplate blk).byte 6 = byteAt blk 4 := by
  refine ⟨?_, ?_, ?_⟩
  · rw [byte_boxTemplate blk (by omega)]
    rfl
  · rw [byte_boxTemplate blk (by omega)]
    rfl
  · rw [byte_boxTemplate blk (by omega)]
    rfl

theorem CarriesBlock.kind_link1 (h : CarriesBlock frame (boxTemplate blk)) (hlink : byteAt blk 0 = 0x01) :
    (ctrlParse frame).kind = kindOfLink1 (byteAt blk 4) := by
  obtain ⟨h0, h1⟩ := boxTemplate_type blk
  obtain ⟨h2, -, h6⟩ := byte_boxTemplate_head blk
  rw [h.kind, Template.kind, h0, h1, h2, h6, hlink, if_neg (by decide), if_neg (by decide),
    if_neg (by decide), if_neg (by decide), if_pos rfl]

theorem CarriesBlock.source (h : CarriesBlock frame (boxTemplate blk)) :
    (ctrlParse frame).src = macAt frame 6 ∧ (ctrlParse frame).dst = macAt frame 0 ∧
      (ctrlParse frame).isBroadcast = (macAt frame 0 == broadcastMac) ∧
      (ctrlParse frame).seg = byteAt blk 1 ∧ (ctrlParse frame).opcode = byteAt blk 4 := by
  obtain ⟨-, h3, h6⟩ := byte_boxTemplate_head blk
  rw [← h3, ← h6]
  exact h.header

/-- A join record from a Roland source is a JOIN, unless it is our own echo. -/
theorem classify_join {our : Mac} (h : CarriesBlock frame (boxTemplate blk))
    (hclosed : byteSum (byteAt blk) 32 = 0) (hroland : rolandMac (macAt frame 6))
    (hhead : byteAt blk 0 = 0x04 ∧ byteAt blk 1 = 0x03 ∧ byteAt blk 4 = 0x00)
    (htag : byteAt blk 16 = 0x01 ∧ byteAt blk 17 = 0x00 ∨ byteAt blk 16 = 0x03 ∧ byteAt blk 17 = 0x02) :
    (∃ p, classifyBoxFrame frame our = some (p, .join)) ↔ macAt frame 6 ≠ our := by
  obtain ⟨hlink, hseg, hop⟩ := hhead
  obtain ⟨hkind, htag'⟩ := h.record hlink hseg (by
    rcases htag with ⟨h16, h17⟩ | ⟨h16, h17⟩
    · rw [h16, h17]
      decide
    · rw [h16, h17]
      decide)
  obtain ⟨hsrc, -, -, -, hopcode⟩ := h.source
  have hsum : checksumVerify frame = true := h.closes.mpr (cksumOk_boxTemplate.mpr hclosed)
  have hword : (ctrlParse frame).dt1Tag = 0x0100 ∨ (ctrlParse frame).dt1Tag = 0x0302 := by
    rw [htag']
    rcases htag with ⟨h16, h17⟩ | ⟨h16, h17⟩
    · rw [h16, h17]
      decide
    · rw [h16, h17]
      decide
  obtain ⟨h0, h1, h2⟩ := hroland.bytes
  obtain ⟨_, r0⟩ := Vector.getElem?_eq_some_iff.mp h0
  obtain ⟨_, r1⟩ := Vector.getElem?_eq_some_iff.mp h1
  obtain ⟨_, r2⟩ := Vector.getElem?_eq_some_iff.mp h2
  unfold classifyBoxFrame
  dsimp only
  rw [hsrc, hkind, if_neg (by decide), if_neg (by simp [r0, r1, r2])]
  by_cases hown : macAt frame 6 = our
  · simp [hown]
  · rw [if_neg hown, if_neg (by simp [hsum]), if_pos rfl, if_pos ⟨hopcode.trans hop, hword⟩]
    simp [hown]

theorem kindOfLink1_config {op : UInt8} :
    kindOfLink1 op = .configAnnounce ↔ op = 0x82 ∨ op = 0x80 ∨ op = 0x84 := by
  constructor
  · intro h
    unfold kindOfLink1 at h
    split_ifs at h with _ _ _ _ hdecl
    exact hdecl
  · rintro (rfl | rfl | rfl) <;> rfl

/-- A link-1 message to us from a Roland source is a CONFIG when its opcode is one of the three
declarations and it is no echo of ours. -/
theorem classify_config {our : Mac} (h : CarriesBlock frame (boxTemplate blk))
    (hclosed : byteSum (byteAt blk) 32 = 0) (hroland : rolandMac (macAt frame 6))
    (hlink : byteAt blk 0 = 0x01) (hdst : macAt frame 0 = our) :
    (∃ p, classifyBoxFrame frame our = some (p, .config)) ↔ macAt frame 6 ≠ our ∧ our ≠ broadcastMac ∧
      (byteAt blk 4 = 0x82 ∨ byteAt blk 4 = 0x80 ∨ byteAt blk 4 = 0x84) := by
  obtain ⟨hsrc, hdst', hbcast, hseg, -⟩ := h.source
  have hsum : checksumVerify frame = true := h.closes.mpr (cksumOk_boxTemplate.mpr hclosed)
  have hkind := h.kind_link1 hlink
  have hconfig : kindOfLink1 (byteAt blk 4) = .configAnnounce ↔
      byteAt blk 4 = 0x82 ∨ byteAt blk 4 = 0x80 ∨ byteAt blk 4 = 0x84 :=
    kindOfLink1_config
  have hnone : kindOfLink1 (byteAt blk 4) ≠ .none ∧ kindOfLink1 (byteAt blk 4) ≠ .filler ∧
      kindOfLink1 (byteAt blk 4) ≠ .grant ∧ kindOfLink1 (byteAt blk 4) ≠ .headamp := kindOfLink1_sorts _
  obtain ⟨h0, h1, h2⟩ := hroland.bytes
  obtain ⟨_, r0⟩ := Vector.getElem?_eq_some_iff.mp h0
  obtain ⟨_, r1⟩ := Vector.getElem?_eq_some_iff.mp h1
  obtain ⟨_, r2⟩ := Vector.getElem?_eq_some_iff.mp h2
  unfold classifyBoxFrame
  dsimp only
  rw [hsrc, hkind, hbcast, hdst', hdst, hseg, ← hconfig, if_neg hnone.1, if_neg (by simp [r0, r1, r2])]
  by_cases hown : macAt frame 6 = our
  · simp [hown]
  rw [if_neg hown, if_neg (by simp [hsum]), if_neg hnone.2.2.1]
  by_cases hall : our = broadcastMac
  · simp [hall, hnone.2.1]
  rw [if_neg (by simpa using hall), if_neg (by simp)]
  simp only [hown, hall, ne_eq, not_false_eq_true, true_and]
  by_cases hcfg : kindOfLink1 (byteAt blk 4) = .configAnnounce
  · simp [hcfg]
  · rw [if_neg hcfg]
    simp only [hcfg, iff_false, not_exists]
    intro p
    split_ifs <;> simp

/-! ## The declaration -/

theorem portCodes_config (h : m.refuses .config = false) (hpos : 0 ≤ m.inCh ∧ 0 ≤ m.outCh)
    (hf : CarriesBlock frame (boxTemplate (blockCheck (configBytes m)))) :
    portCodes frame = configPorts m := by
  have hports := length_configPorts h hpos
  have hlen : (configBytes m).length = 31 := by
    simp [configBytes, hports]
  have hslice := hf.slice (show 8 + 12 ≤ 32 by omega) (by simp)
  rw [slice_blockCheck (by omega) (by omega)] at hslice
  have hdrop : ((configBytes m).drop 8).take 12 = configPorts m := by
    simp [configBytes, hports]
  rw [hdrop] at hslice
  exact hslice

/-- Four channels for each input slot, four for each output slot, and no slot of another code. -/
theorem configPorts_counts (h : m.refuses .config = false) (hpos : 0 ≤ m.inCh ∧ 0 ≤ m.outCh) :
    ((4 * (configPorts m).countP (fun c => c = 0x02 ∨ c = 0x00) : ℕ) : ℤ) = m.inCh ∧
      ((4 * (configPorts m).countP (fun c => c = 0x01) : ℕ) : ℤ) = m.outCh ∧
      (configPorts m).countP (fun c => ¬ (c = 0x02 ∨ c = 0x00 ∨ c = 0x01 ∨ c = 0x03)) = 0 := by
  simp only [BoxRow.refuses, decide_eq_false_iff_not, not_or, Decidable.not_not] at h
  unfold configPorts
  split_ifs
  · refine ⟨?_, ?_, ?_⟩ <;> simp [List.countP_replicate] <;> omega
  · refine ⟨?_, ?_, ?_⟩ <;> simp [List.countP_replicate] <;> omega

theorem configBytes_head (hf : CarriesBlock frame (boxTemplate (blockCheck (configBytes m))))
    (hlen : (configBytes m).length = 31) :
    byteAt frame (18 + 0) = 0x01 ∧ byteAt frame (18 + 1) = 0x03 ∧ byteAt frame (18 + 4) = m.selector ∧
      byteAt frame (18 + 7) = m.headampStrap := by
  refine ⟨?_, ?_, ?_, ?_⟩
  · rw [hf.blockAt (by omega), byteAt_blockCheck (by omega) (by omega)]
    rfl
  · rw [hf.blockAt (by omega), byteAt_blockCheck (by omega) (by omega)]
    rfl
  · rw [hf.blockAt (by omega), byteAt_blockCheck (by omega) (by omega)]
    rfl
  · rw [hf.blockAt (by omega), byteAt_blockCheck (by omega) (by omega)]
    rfl

/-- The port table is read back as the row declares it. -/
theorem ports_config (h : m.refuses .config = false) (hpos : 0 ≤ m.inCh ∧ 0 ≤ m.outCh)
    (hf : CarriesBlock frame (boxTemplate (blockCheck (configBytes m))))
    (hsel : m.selector = 0x82 ∨ m.selector = 0x80 ∨ m.selector = 0x84) :
    (∃ ports, portsParse frame = some ports ∧ (ports.inCh : ℤ) = m.inCh ∧
      (ports.outCh : ℤ) = m.outCh ∧ ports.headampBase = m.headampStrap.toNat * 16) ∧
    portsUnknown frame = some 0 := by
  have hlen : (configBytes m).length = 31 := by
    simp [configBytes, length_configPorts h hpos]
  obtain ⟨h0, h1, h4, h7⟩ := configBytes_head hf hlen
  have hcodes := portCodes_config h hpos hf
  obtain ⟨hin, hout, hunknown⟩ := configPorts_counts h hpos
  have hlink : ¬ (byteAt frame (18 + 0) ≠ 1 ∨ byteAt frame (18 + 1) ≠ 0x03) := by
    rw [h0, h1]
    decide
  have hop : ¬ (byteAt frame (18 + 4) ≠ 0x82 ∧ byteAt frame (18 + 4) ≠ 0x80 ∧
      byteAt frame (18 + 4) ≠ 0x84) := by
    rw [h4]
    tauto
  constructor
  · refine ⟨_, by rw [portsParse, if_neg hlink, if_neg hop], ?_, ?_, ?_⟩
    · dsimp only
      rw [hcodes]
      exact hin
    · dsimp only
      rw [hcodes]
      exact hout
    · dsimp only
      rw [h7]
  · rw [portsUnknown, if_neg hlink, if_neg hop, hcodes, hunknown]

/-! ## A box frame -/

/-- What the master reads in the frame of block `b`: a JOIN, the declaration of the row, a single
record of the identity page or half of the name record. -/
def BoxReads (m : BoxRow) (master : Mac) (frame : List UInt8) : BoxBlock → Prop
  | .cc0014 | .cc0013 => ∃ p, classifyBoxFrame frame master = some (p, .join)
  | .config =>
    (∃ p, classifyBoxFrame frame master = some (p, .config)) ∧
    (∃ ports, portsParse frame = some ports ∧ (ports.inCh : ℤ) = m.inCh ∧
      (ports.outCh : ℤ) = m.outCh ∧ ports.headampBase = m.headampStrap.toNat * 16) ∧
    portsUnknown frame = some 0
  | .cc0016 | .cc001a => (ctrlParse frame).kind = .grant ∧ (ctrlParse frame).dt1Tag = 0x0500
  | .identFirst | .identLast => (ctrlParse frame).kind = .recordFragment

/-- A frame is built exactly when its block exists, and it is read as what the row declares. -/
def BoxFrameSound (m : BoxRow) (b : BoxBlock) (master src : Mac) (counter : UInt16) (planar : Planes)
    (ns : ℤ) : Prop :=
  ((∃ frame, ctrlBuildAs m b master src counter planar ns = some frame) ↔
    boxWidthOk (upstreamWidth m) = true ∧ ∃ blk, boxModelBlock m b = .built blk) ∧
  ∀ frame, ctrlBuildAs m b master src counter planar ns = some frame →
    ∃ blk, boxModelBlock m b = .built blk ∧ (frame.length : ℤ) = 52 + 36 * upstreamWidth m ∧
      frame.drop (frame.length - 2) = [0xc2, 0xea] ∧ blockBytes frame 0 32 = blk ∧
      byteSum (byteAt blk) 32 = 0 ∧ BoxReads m master frame b

/-- The addresses and the selector under which block `b` is what it is taken for. -/
def BoxAddressed (m : BoxRow) (master src : Mac) : BoxBlock → Prop
  | .cc0014 | .cc0013 => src ≠ master
  | .config => src ≠ master ∧ master ≠ broadcastMac ∧
      (m.selector = 0x82 ∨ m.selector = 0x80 ∨ m.selector = 0x84)
  | _ => True

section Frame

variable {master src : Mac} {counter : UInt16} {planar : Planes} {ns : ℤ}

theorem width_pos (h : boxWidthOk (upstreamWidth m) = true) : 2 ≤ upstreamWidth m :=
  (of_decide_eq_true h).1

/-- The frame of a legal row, whatever became of the block. -/
theorem ctrlBuildAs_eq (hw : boxWidthOk (upstreamWidth m) = true)
    (hgate : (ctrlFrameOf b).gateHasIdentity = true → m.hasIdentityRecord = true) :
    ∃ audio : List UInt8, audio.length = (upstreamWidth m).toNat * 36 ∧
      ctrlBuildAs m b master src counter planar ns =
        some (ctrlHdr master src counter ++ ctrlFinish (ctrlFrameOf b) (ctrlLayBlock m b) ++ audio ++
          [0xc2, 0xea]) := by
  unfold ctrlBuildAs
  dsimp only
  rw [if_neg (by simp [hw]), if_neg (by simpa using hgate)]
  refine ⟨_, ?_, rfl⟩
  split_ifs
  · rw [length_braidEncode, List.length_replicate]
  · rw [List.length_replicate]

theorem ctrlBuildAs_gated (hgate : (ctrlFrameOf b).gateHasIdentity = true)
    (hno : m.hasIdentityRecord = false) : ctrlBuildAs m b master src counter planar ns = none := by
  unfold ctrlBuildAs
  dsimp only
  split_ifs
  · rfl
  · rfl
  · simp_all

/-- The facts about a frame whose block exists. -/
structure BuiltFrame (m : BoxRow) (b : BoxBlock) (master src : Mac) (blk frame : List UInt8) :
    Prop where
  block : boxModelBlock m b = .built blk
  sum : byteSum (byteAt blk) 32 = 0
  length : (frame.length : ℤ) = 52 + 36 * upstreamWidth m
  marker : frame.drop (frame.length - 2) = [0xc2, 0xea]
  bytes : blockBytes frame 0 32 = blk
  carries : CarriesBlock frame (boxTemplate blk)
  dst : macAt frame 0 = master
  source : macAt frame 6 = src

theorem builtFrame (hw : boxWidthOk (upstreamWidth m) = true) (href : m.refuses b = false)
    (hgate : (ctrlFrameOf b).gateHasIdentity = true → m.hasIdentityRecord = true) :
    ∃ blk frame, BuiltFrame m b master src blk frame ∧
      ctrlBuildAs m b master src counter planar ns = some frame := by
  obtain ⟨blk, hblk, hlen, hsum⟩ := boxModelBlock_built (counts_of_width hw) href hgate
  obtain ⟨audio, haudio, hbuild⟩ := @ctrlBuildAs_eq m b master src counter planar ns hw hgate
  have hlay : ctrlLayBlock m b = blk := by
    rw [ctrlLayBlock, hblk]
  have hpos := width_pos hw
  rw [hlay, ctrlFinish_closed _ hlen hsum, List.append_assoc (_ ++ blk)] at hbuild
  have hcarries := carriesBlock_ctrlHdr master src counter hlen (audio ++ [0xc2, 0xea])
  obtain ⟨hdst, hsrc⟩ := macAt_ctrlHdr master src counter (blk ++ (audio ++ [0xc2, 0xea]))
  rw [← List.append_assoc] at hdst hsrc
  refine ⟨blk, _, ⟨hblk, hsum, ?_, ?_, ?_, hcarries, hdst, hsrc⟩, hbuild⟩
  · simp [length_ctrlHdr, hlen, haudio]
    omega
  · rw [← List.append_assoc, List.length_append, List.length_cons, List.length_singleton,
      Nat.add_sub_cancel, List.drop_left]
  · rw [hcarries.slice (show 0 + 32 ≤ 32 by omega) (by omega), List.drop_zero,
      List.take_of_length_le (by omega)]

theorem BuiltFrame.reads_record {frag : List UInt8} {addr : UInt16} {len : UInt8}
    (h : BuiltFrame m b master src blk frame) (hblk : blk = blockCheck (dt1Head 0x03 len addr ++ frag))
    (hlen : frag.length ≤ 11) :
    (ctrlParse frame).kind = .grant ∧ (ctrlParse frame).dt1Tag = 0x0500 := by
  have hat : ∀ i < 20, byteAt blk i = byteAt (dt1Head 0x03 len addr) i := by
    intro i hi
    have hhead : (dt1Head 0x03 len addr).length = 20 := rfl
    rw [hblk, byteAt_blockCheck (by simp [hhead]; omega) (by omega), byteAt_append_left (by omega)]
  obtain ⟨hkind, htag⟩ := h.carries.record (hat 0 (by omega)) (hat 1 (by omega)) (by
    rw [hat 16 (by omega)]
    rintro ⟨h16, -⟩
    cases h16)
  rw [hat 16 (by omega), hat 17 (by omega)] at htag
  have hword : u16be 0x05 0x00 = 0x0500 := by decide
  exact ⟨hkind, htag.trans hword⟩

theorem BuiltFrame.reads_fragment (h : BuiltFrame m b master src blk frame)
    (hlink : byteAt blk 0 = 0x04) (hseg : byteAt blk 1 ≠ 0x03) :
    (ctrlParse frame).kind = .recordFragment := by
  obtain ⟨h0, h1⟩ := boxTemplate_type blk
  obtain ⟨h2, h3, -⟩ := byte_boxTemplate_head blk
  rw [h.carries.kind]
  exact kind_fragment ⟨h0, h1, h2.trans hlink⟩ (h3 ▸ hseg)

/-- What is read in the frame of an existing block. -/
theorem BuiltFrame.reads_iff (h : BuiltFrame m b master src blk frame) (hroland : rolandMac src)
    (href : m.refuses b = false) (hpos : 0 ≤ m.inCh ∧ 0 ≤ m.outCh) :
    BoxReads m master frame b ↔ BoxAddressed m master src b := by
  rw [← h.source] at hroland
  have hblk := h.block
  cases b with
  | config =>
    rw [boxModelBlock, rowConfig_eq hpos, if_neg (by rw [href]; decide)] at hblk
    obtain rfl := BlockAnswer.built.inj hblk
    have hlen : (configBytes m).length = 31 := by
      simp [configBytes, length_configPorts href hpos]
    have hsel : byteAt (blockCheck (configBytes m)) 4 = m.selector := by
      rw [byteAt_blockCheck (by omega) (by omega)]
      rfl
    have hlink : byteAt (blockCheck (configBytes m)) 0 = 0x01 := by
      rw [byteAt_blockCheck (by omega) (by omega)]
      rfl
    have hclass := classify_config h.carries h.sum hroland hlink h.dst
    rw [h.source, hsel] at hclass
    constructor
    · intro hreads
      exact hclass.mp hreads.1
    · intro haddr
      exact ⟨hclass.mpr haddr, ports_config href hpos h.carries haddr.2.2⟩
  | cc0014 =>
    obtain rfl := BlockAnswer.built.inj hblk
    rw [BoxReads, classify_join h.carries h.sum hroland (by decide) (by decide), h.source]
    rfl
  | cc0013 =>
    obtain rfl := BlockAnswer.built.inj hblk
    rw [BoxReads, classify_join h.carries h.sum hroland (by decide) (by decide), h.source]
    rfl
  | cc0016 =>
    have hsmall : ¬ 9999 < m.fwMilli := of_decide_eq_false href
    simp only [boxModelBlock, buildFirmware, hsmall, if_false] at hblk
    refine iff_of_true (h.reads_record (BlockAnswer.built.inj hblk).symm ?_) trivial
    simp
  | cc001a =>
    refine iff_of_true (h.reads_record (BlockAnswer.built.inj hblk).symm ?_) trivial
    simp
  | identFirst =>
    by_cases hid : m.hasIdentityRecord = true
    · rw [boxModelBlock, if_pos hid] at hblk
      obtain rfl := BlockAnswer.built.inj hblk
      have hhead : ∀ i < 20, byteAt (buildIdentFirst m) i = byteAt (dt1Head 0x01 22 0x1000) i := by
        intro i hi
        have hlen : (dt1Head 0x01 22 0x1000).length = 20 := rfl
        rw [buildIdentFirst, byteAt_blockCheck (by simp [dt1Head, nameField]) (by omega),
          List.append_assoc, byteAt_append_left (by exact hlen ▸ hi)]
        rfl
      refine iff_of_true (h.reads_fragment (hhead 0 (by omega)) ?_) trivial
      rw [hhead 1 (by omega)]
      decide
    · rw [boxModelBlock, if_neg hid] at hblk
      cases hblk
  | identLast =>
    by_cases hid : m.hasIdentityRecord = true
    · rw [boxModelBlock, if_pos hid] at hblk
      obtain rfl := BlockAnswer.built.inj hblk
      have hhead : ∀ i < 9, byteAt (buildIdentLast m) i =
          byteAt [0x04, 0x02, 0x00, 6 + 2 + 5, 0x00, 0x02, 0x00, 0xfe, 6 + 2] i := by
        intro i hi
        rw [buildIdentLast, byteAt_blockCheck (by simp [nameField]) (by omega),
          List.append_assoc, byteAt_append_left (by simpa using hi)]
      refine iff_of_true (h.reads_fragment (hhead 0 (by omega)) ?_) trivial
      rw [hhead 1 (by omega)]
      decide
    · rw [boxModelBlock, if_neg hid] at hblk
      cases hblk

/-- The frames of a box are sound exactly when a row of legal width does not refuse its block, and
when the block is addressed as what it is. -/
theorem box_frame_sound (hroland : rolandMac src) :
    BoxFrameSound m b master src counter planar ns ↔
      (boxWidthOk (upstreamWidth m) = true → m.refuses b = false ∧ BoxAddressed m master src b) := by
  by_cases hw : boxWidthOk (upstreamWidth m) = true
  swap
  · have hnone : ctrlBuildAs m b master src counter planar ns = none := by
      simp [ctrlBuildAs, hw]
    simp [BoxFrameSound, hnone, hw]
  by_cases hskip : (ctrlFrameOf b).gateHasIdentity = true ∧ m.hasIdentityRecord = false
  · -- No record, no frame: nothing is declared and nothing is refused.
    obtain ⟨hgate, hno⟩ := hskip
    have hnone := @ctrlBuildAs_gated m b master src counter planar ns hgate hno
    have habsent := boxModelBlock_absent hgate hno
    have hfree : m.refuses b = false ∧ BoxAddressed m master src b := by
      cases b with
      | identFirst | identLast => exact ⟨rfl, trivial⟩
      | config | cc0014 | cc0013 | cc0016 | cc001a => cases hgate
    simp [BoxFrameSound, hnone, habsent, hfree]
  have hgate : (ctrlFrameOf b).gateHasIdentity = true → m.hasIdentityRecord = true := by
    simpa using hskip
  have hpos := counts_of_width hw
  constructor
  · rintro ⟨hiff, hreads⟩ -
    have href : m.refuses b = false := by
      by_contra hbad
      have hrefused := boxModelBlock_refuses hpos (Bool.of_not_eq_false hbad)
      obtain ⟨_, -, hbuild⟩ := @ctrlBuildAs_eq m b master src counter planar ns hw hgate
      obtain ⟨-, blk, hblk⟩ := hiff.mp ⟨_, hbuild⟩
      rw [hrefused] at hblk
      cases hblk
    obtain ⟨blk, frame, hframe, hbuild⟩ := @builtFrame m b master src counter planar ns hw href hgate
    obtain ⟨-, -, -, -, -, -, hread⟩ := hreads frame hbuild
    exact ⟨href, (hframe.reads_iff hroland href hpos).mp hread⟩
  · intro hfit
    obtain ⟨href, haddr⟩ := hfit hw
    obtain ⟨blk, frame, hframe, hbuild⟩ := @builtFrame m b master src counter planar ns hw href hgate
    refine ⟨iff_of_true ⟨frame, hbuild⟩ ⟨hw, blk, hframe.block⟩, ?_⟩
    intro frame' hbuild'
    obtain rfl := Option.some.inj (hbuild.symm.trans hbuild')
    exact ⟨blk, hframe.block, hframe.length, hframe.marker, hframe.bytes, hframe.sum,
      (hframe.reads_iff hroland href hpos).mpr haddr⟩

/-- An S-0808 as its row declares it. -/
def rowS0808 : BoxRow where
  inCh := 8
  outCh := 8
  hasIdentityRecord := true
  selector := 0x84
  fwMilli := 2200
  reacMajor := 2
  name := some ⟨[0x53, 0x2d, 0x30, 0x38, 0x30, 0x38], by simp⟩

/-- The declaration of the S-0808 is read back by the master it is sent to. -/
theorem box_frame_s0808 :
    rolandMac #v[0x00, 0x40, 0xab, 0xc4, 0x00, 0x01] ∧
      BoxFrameSound rowS0808 .config #v[0x00, 0x40, 0xab, 0xc4, 0x00, 0x02]
        #v[0x00, 0x40, 0xab, 0xc4, 0x00, 0x01] 7 none 0 := by
  have hroland : rolandMac #v[0x00, 0x40, 0xab, 0xc4, 0x00, 0x01] := by decide
  refine ⟨hroland, (box_frame_sound hroland).mpr ?_⟩
  intro _
  refine ⟨by decide, by decide, by decide, Or.inr (Or.inr rfl)⟩

/-- A row of two inputs has a legal width and no declaration: the twelve slots count in fours. -/
def rowPair : BoxRow where
  inCh := 2
  outCh := 0
  selector := 0x82

/-- Its declaration is sent all the same, as a block of zeros. -/
theorem box_frame_declares_nothing :
    ¬ BoxFrameSound rowPair .config #v[0x00, 0x40, 0xab, 0xc4, 0x00, 0x02]
      #v[0x00, 0x40, 0xab, 0xc4, 0x00, 0x01] 7 none 0 := by
  rintro ⟨hiff, -⟩
  have hbuilt : ∃ frame, ctrlBuildAs rowPair .config #v[0x00, 0x40, 0xab, 0xc4, 0x00, 0x02]
      #v[0x00, 0x40, 0xab, 0xc4, 0x00, 0x01] 7 none 0 = some frame := ⟨_, rfl⟩
  obtain ⟨-, blk, hblk⟩ := hiff.mp hbuilt
  cases hblk


end Frame

end Libreac
