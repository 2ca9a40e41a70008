import Libreac.Proofs.BoxProofs
import Libreac.Scaffold
import Libreac.Slave

/-!
# Proofs: one block, built or stamped

A write inside the middle of a buffer is a write to the middle alone (`overwrite_append`,
`inWindow_append`). So both paths leave the type word and the closed block of the row at `[16:50]`
(`ctrlStamp_eq`, `ctrlEmitAs_eq`), whatever stood there before.
-/

namespace Libreac

variable {pre mid post bs frame : List UInt8} {o off n : ℕ}

/-! ## Windows of a buffer -/

/-- A write inside the middle of a buffer. -/
theorem overwrite_append (hpre : pre.length = o) (h : off + bs.length ≤ mid.length) :
    overwrite (pre ++ mid ++ post) (o + off) bs = pre ++ overwrite mid off bs ++ post := by
  subst hpre
  unfold overwrite
  rw [List.append_assoc pre mid post, List.take_length_add_append,
    List.take_append_of_le_length (by omega), Nat.add_assoc, List.drop_length_add_append,
    List.drop_append_of_le_length (by omega)]
  simp only [List.append_assoc]

/-- A read inside the middle of a buffer. -/
theorem window_append (hpre : pre.length = o) (h : off + n ≤ mid.length) :
    ((pre ++ mid ++ post).drop (o + off)).take n = (mid.drop off).take n := by
  subst hpre
  rw [List.append_assoc, List.drop_length_add_append, List.drop_append_of_le_length (by omega),
    List.take_append_of_le_length (by rw [List.length_drop]; omega)]

/-- A call inside the middle of a buffer. -/
theorem inWindow_append {f : List UInt8 → List UInt8} (hf : ∀ w, (f w).length = w.length)
    (hpre : pre.length = o) (h : off + n ≤ mid.length) :
    inWindow (o + off) n f (pre ++ mid ++ post) = pre ++ inWindow off n f mid ++ post := by
  have hlen : (f ((mid.drop off).take n)).length = n := by
    rw [hf, List.length_take, List.length_drop]
    omega
  rw [inWindow, window_append hpre h, overwrite_append hpre (by omega), inWindow]

/-- A call on the whole buffer. -/
theorem inWindow_whole {f : List UInt8 → List UInt8} (hf : ∀ w, (f w).length = w.length) :
    inWindow 0 mid.length f mid = f mid := by
  simp [inWindow, overwrite, hf]

theorem length_inWindow {f : List UInt8 → List UInt8} (hf : ∀ w, (f w).length = w.length)
    (h : off + n ≤ mid.length) : (inWindow off n f mid).length = mid.length := by
  have hlen : (f ((mid.drop off).take n)).length = n := by
    rw [hf, List.length_take, List.length_drop]
    omega
  exact length_overwrite (by omega)

/-- A write that fills its place. -/
theorem overwrite_whole (h : bs.length = mid.length) : overwrite mid 0 bs = bs := by
  simp [overwrite, h]

/-! ## The two checksums -/

theorem length_recordStamp (rec : List UInt8) : (recordStamp rec).length = rec.length := List.length_set

theorem length_blockStamp (block : List UInt8) : (blockStamp block).length = block.length :=
  List.length_set

theorem byteAt_set_ne {l : List UInt8} {i j : ℕ} {b : UInt8} (h : j ≠ i) :
    byteAt (l.set i b) j = byteAt l j := by
  simp [byteAt, h.symm]

theorem byteAt_set_self {l : List UInt8} {i : ℕ} {b : UInt8} (h : i < l.length) :
    byteAt (l.set i b) i = b := by
  simp [byteAt, h]

/-- The record checksum is made for the record it ends. -/
theorem recordStamp_verify {rec : List UInt8} (h : rec ≠ []) :
    recordCksumVerify (byteAt (recordStamp rec)) rec.length = true := by
  have hpos : 0 < rec.length := List.length_pos_iff.mpr h
  obtain ⟨n, hn⟩ : ∃ n, rec.length = n + 1 := ⟨rec.length - 1, by omega⟩
  have hlast : byteAt (recordStamp rec) n = (0x80 - (byteSum (byteAt rec) n &&& 0x7f)) &&& 0x7f := by
    unfold recordStamp
    rw [hn, Nat.add_sub_cancel, byteAt_set_self (by omega)]
  have hsum : byteSum (byteAt (recordStamp rec)) n = byteSum (byteAt rec) n :=
    byteSum_congr fun i hi => byteAt_set_ne (by omega)
  unfold recordCksumVerify
  rw [hn, byteSum, hsum, hlast, sevenBit_closes]
  rfl

/-- The check byte is a MIDI data byte. -/
theorem recordStamp_last_lt {rec : List UInt8} (h : rec ≠ []) :
    byteAt (recordStamp rec) (rec.length - 1) < 0x80 := by
  have hpos : 0 < rec.length := List.length_pos_iff.mpr h
  unfold recordStamp
  rw [byteAt_set_self (by omega), UInt8.lt_iff_toNat_lt, UInt8.toNat_and]
  exact Nat.lt_of_le_of_lt Nat.and_le_right (by decide)

/-- A stamped block closes. -/
theorem blockStamp_closes {block : List UInt8} (h : block.length = 32) :
    byteSum (byteAt (blockStamp block)) 32 = 0 := by
  have hsum : byteSum (byteAt (blockStamp block)) 31 = byteSum (byteAt block) 31 :=
    byteSum_congr fun i hi => byteAt_set_ne (by omega)
  have hlast : byteAt (blockStamp block) 31 = 0 - byteSum (byteAt block) 31 := byteAt_set_self (by omega)
  rw [byteSum, hsum, hlast, UInt8.zero_sub, UInt8.add_right_neg]

/-! ## The block of a row -/

section Row

variable {f : CtrlRow} {m : Option BoxRow} {args : Option (List UInt8)}

/-- The block of a row with the caller's bytes in it. -/
def CtrlRow.filled (f : CtrlRow) (m : Option BoxRow) (args : Option (List UInt8)) : List UInt8 :=
  match args with
  | none => f.source m
  | some args =>
    if f.argLen ≠ 0 then overwrite (f.source m) f.argOff (args.take f.argLen) else f.source m

/-- The block with the row's checksums. -/
def CtrlRow.closed (f : CtrlRow) (blk : List UInt8) : List UInt8 :=
  match f.cksum with
  | .record => blockStamp (inWindow f.recOff f.recLen recordStamp blk)
  | .block => blockStamp blk
  | .none => blk

theorem BlockAnswer.ofOption_eq_built {o : Option (List UInt8)} {blk : List UInt8} :
    BlockAnswer.ofOption o = .built blk ↔ o = some blk := by
  cases o <;> simp [BlockAnswer.ofOption]

/-- What a generator builds is 32 bytes long. -/
theorem length_of_built {m : BoxRow} {b : BoxBlock} {blk : List UInt8} (h : boxModelBlock m b = .built blk) :
    blk.length = 32 := by
  unfold boxModelBlock at h
  cases b with
  | config =>
    rw [BlockAnswer.ofOption_eq_built] at h
    unfold rowConfig at h
    dsimp only at h
    split_ifs at h <;> rw [← Option.some.inj h, length_blockCheck]
  | cc0014 => rw [← BlockAnswer.built.inj h]; rfl
  | cc0013 => rw [← BlockAnswer.built.inj h]; rfl
  | cc0016 =>
    rw [BlockAnswer.ofOption_eq_built] at h
    unfold buildFirmware at h
    dsimp only at h
    split_ifs at h
    rw [← Option.some.inj h, buildDt1Single, length_blockCheck]
  | cc001a => rw [← BlockAnswer.built.inj h]; exact length_blockCheck _
  | identFirst =>
    dsimp only at h
    split_ifs at h
    rw [← BlockAnswer.built.inj h]
    exact length_blockCheck _
  | identLast =>
    dsimp only at h
    split_ifs at h
    rw [← BlockAnswer.built.inj h]
    exact length_blockCheck _

theorem length_ctrlLayBlock (m : BoxRow) (b : BoxBlock) : (ctrlLayBlock m b).length = 32 := by
  unfold ctrlLayBlock
  cases h : boxModelBlock m b with
  | built blk => exact length_of_built h
  | absent => rfl
  | refused => rfl

theorem length_source (f : CtrlRow) (m : Option BoxRow) : (f.source m).length = 32 := by
  unfold CtrlRow.source
  cases f.block with
  | zero => rfl
  | desc => rfl
  | tmpl t => exact t.length_toList
  | model b =>
    cases m with
    | none => rfl
    | some m => exact length_ctrlLayBlock m b

theorem length_take_args (f : CtrlRow) (args : List UInt8) :
    f.argOff + (args.take f.argLen).length ≤ 32 := by
  have := f.args_fit
  rw [List.length_take]
  omega

theorem length_filled (f : CtrlRow) (m : Option BoxRow) (args : Option (List UInt8)) :
    (f.filled m args).length = 32 := by
  have hsource := length_source f m
  cases args with
  | none => exact hsource
  | some args =>
    have hargs := length_take_args f args
    unfold CtrlRow.filled
    dsimp only
    split_ifs
    · rw [length_overwrite (by omega), hsource]
    · exact hsource

theorem length_closed {blk : List UInt8} (h : blk.length = 32) : (f.closed blk).length = 32 := by
  have hrec := f.rec_fit
  unfold CtrlRow.closed
  split
  · rw [length_blockStamp, length_inWindow length_recordStamp (by omega), h]
  · rw [length_blockStamp, h]
  · exact h

/-- Laying a row over a frame. -/
theorem layBlock_eq (hpre : pre.length = 18) (hmid : mid.length = 32) :
    layBlock (pre ++ mid ++ post) f m args = pre ++ f.filled m args ++ post := by
  have hsource := length_source f m
  have hblock : overwrite (pre ++ mid ++ post) 18 (f.source m) = pre ++ f.source m ++ post := by
    rw [show 18 = 18 + 0 from rfl, overwrite_append hpre (by omega), overwrite_whole (by omega)]
  cases args with
  | none => exact hblock
  | some args =>
    have hargs := length_take_args f args
    unfold layBlock CtrlRow.filled
    dsimp only
    rw [hblock]
    split_ifs
    · exact overwrite_append hpre (by omega)
    · rfl

/-- The checksums of a row over the frame that carries it. -/
theorem finishBlock_eq (hpre : pre.length = 18) (hmid : mid.length = 32) :
    finishBlock (pre ++ mid ++ post) f = pre ++ f.closed mid ++ post := by
  have hrec := f.rec_fit
  have hblock : ∀ blk : List UInt8, blk.length = 32 →
      inWindow 18 32 blockStamp (pre ++ blk ++ post) = pre ++ blockStamp blk ++ post := by
    intro blk hblk
    rw [show 18 = 18 + 0 from rfl, inWindow_append length_blockStamp hpre (by omega), ← hblk,
      inWindow_whole length_blockStamp]
  have hstamped : (inWindow f.recOff f.recLen recordStamp mid).length = 32 := by
    rw [length_inWindow length_recordStamp (by omega), hmid]
  unfold finishBlock CtrlRow.closed
  cases f.cksum with
  | record =>
    dsimp only
    rw [inWindow_append length_recordStamp hpre (by omega)]
    exact hblock _ hstamped
  | block => exact hblock mid hmid
  | none => rfl

/-- A stamped frame: type word and block are the row's, all else is as it was. -/
theorem ctrlStamp_eq (h : 50 ≤ frame.length) (f : CtrlRow) (args : List UInt8) :
    ctrlStamp frame f args =
      (frame.take 16 ++ [f.type0, f.type1]) ++ f.closed (f.filled none (some args)) ++ frame.drop 50 := by
  have hpre : (frame.take 16 ++ [f.type0, f.type1]).length = 18 := by simp; omega
  have hmid : ((frame.drop 18).take 32).length = 32 := by simp; omega
  have htype : overwrite frame 16 [f.type0, f.type1] =
      (frame.take 16 ++ [f.type0, f.type1]) ++ (frame.drop 18).take 32 ++ frame.drop 50 := by
    have hrest : frame.drop 18 = (frame.drop 18).take 32 ++ frame.drop 50 := by
      rw [show frame.drop 50 = (frame.drop 18).drop 32 by rw [List.drop_drop], List.take_append_drop]
    rw [List.append_assoc, ← hrest]
    rfl
  rw [ctrlStamp, htype, layBlock_eq hpre hmid, finishBlock_eq hpre (length_filled ..)]

/-! ## The built frame -/

theorem length_hdrBytes (dst src : Mac) (counter : UInt16) (t0 t1 : UInt8) :
    (hdrBytes dst src counter t0 t1).length = 18 := by
  simp [hdrBytes]

theorem putHdr_zero (dst src : Mac) (counter : UInt16) (t0 t1 : UInt8) {len : ℕ} (hlen : 50 ≤ len) :
    putHdr (List.replicate len 0) dst src counter t0 t1 =
      hdrBytes dst src counter t0 t1 ++ List.replicate 32 0 ++ List.replicate (len - 50) 0 := by
  have hhdr := length_hdrBytes dst src counter t0 t1
  have hzero : List.replicate len (0 : UInt8) =
      [] ++ List.replicate 18 0 ++ (List.replicate 32 0 ++ List.replicate (len - 50) 0) := by
    simp only [List.nil_append, List.replicate_append_replicate]
    congr 1
    omega
  have hput : ∀ rest : List UInt8, overwrite ([] ++ List.replicate 18 0 ++ rest) (0 + 0)
      (hdrBytes dst src counter t0 t1) =
        [] ++ overwrite (List.replicate 18 0) 0 (hdrBytes dst src counter t0 t1) ++ rest :=
    fun rest => overwrite_append rfl (by rw [hhdr, List.length_replicate])
  rw [putHdr, hzero, hput, overwrite_whole (by rw [hhdr, List.length_replicate])]
  simp only [List.nil_append, List.append_assoc]

section Audio

variable {nCh ns : ℤ} {planar : Planes}

theorem placeAudio_append (hpre : pre.length = 50) (hroom : f.audio = true → nCh.toNat * 36 ≤ mid.length) :
    placeAudio f nCh planar ns 50 (pre ++ mid) = pre ++ placeAudio f nCh planar ns 0 mid := by
  unfold placeAudio
  split_ifs with haudio
  · have hroom := hroom haudio
    have happ : ∀ enc : List UInt8 → List UInt8, (∀ w, (enc w).length = w.length) →
        inWindow (50 + 0) (nCh.toNat * 36) enc (pre ++ mid ++ []) =
          pre ++ inWindow 0 (nCh.toNat * 36) enc mid ++ [] :=
      fun enc henc => inWindow_append henc hpre (by omega)
    simpa only [List.append_nil] using happ _ fun w => length_braidEncode w nCh.toNat planar nCh ns
  · rfl

theorem length_placeAudio (hroom : f.audio = true → nCh.toNat * 36 ≤ mid.length) :
    (placeAudio f nCh planar ns 0 mid).length = mid.length := by
  unfold placeAudio
  split_ifs with haudio
  · have hroom := hroom haudio
    exact length_inWindow (fun w => length_braidEncode w nCh.toNat planar nCh ns) (by omega)
  · rfl

/-- What a built frame carries behind its block: silence or audio, and the end marker. -/
def bodyBytes (f : CtrlRow) (nCh : ℤ) (planar : Planes) (ns : ℤ) (len : ℕ) : List UInt8 :=
  overwrite (placeAudio f nCh planar ns 0 (List.replicate (len - 50) 0)) (len - 52) [0xc2, 0xea]

/-- A built frame: header, closed block, body. -/
theorem emitSteps_eq (f : CtrlRow) (m : BoxRow) (dst src : Mac) (counter : UInt16) (nCh : ℤ)
    (args : Option (List UInt8)) (planar : Planes) (ns : ℤ) {len : ℕ} (hlen : 52 ≤ len)
    (hroom : f.audio = true → nCh.toNat * 36 + 52 ≤ len) :
    emitSteps f m dst src counter nCh args planar ns len =
      hdrBytes dst src counter f.type0 f.type1 ++ f.closed (f.filled (some m) args) ++
        bodyBytes f nCh planar ns len := by
  have hhdr := length_hdrBytes dst src counter f.type0 f.type1
  have hfilled := length_filled f (some m) args
  have hclosed := length_closed (f := f) hfilled
  have hsilent : f.audio = true → nCh.toNat * 36 ≤ (List.replicate (len - 50) (0 : UInt8)).length := by
    intro haudio
    have := hroom haudio
    rw [List.length_replicate]
    omega
  have hbody : (placeAudio f nCh planar ns 0 (List.replicate (len - 50) 0)).length = len - 50 := by
    rw [length_placeAudio hsilent, List.length_replicate]
  unfold emitSteps bodyBytes
  dsimp only
  rw [putHdr_zero _ _ _ _ _ (by omega), layBlock_eq hhdr (List.length_replicate ..),
    placeAudio_append (by rw [List.length_append, hhdr, hfilled]) hsilent, finishBlock_eq hhdr hfilled]
  have hend : ∀ head body : List UInt8, head.length = 50 → body.length = len - 50 →
      overwrite (head ++ body ++ []) (50 + (len - 52)) [0xc2, 0xea] =
        head ++ overwrite body (len - 52) [0xc2, 0xea] ++ [] :=
    fun head body hhead hbody => overwrite_append hhead (by simp; omega)
  rw [show 50 + (len - 52) = len - 2 by omega] at hend
  simpa only [List.append_nil] using hend _ _ (by rw [List.length_append, hhdr, hclosed]) hbody

end Audio

/-! ## What the closed block says -/

variable {blk : List UInt8}

/-- Each row that asks for a checksum gets a block that closes. -/
theorem closed_closes (hcksum : f.cksum ≠ .none) (h : blk.length = 32) :
    byteSum (byteAt (f.closed blk)) 32 = 0 := by
  have hrec := f.rec_fit
  unfold CtrlRow.closed
  cases hc : f.cksum with
  | record =>
    refine blockStamp_closes ?_
    rw [length_inWindow length_recordStamp (by omega), h]
  | block => exact blockStamp_closes h
  | none => exact absurd hc hcksum

/-- The block checksum leaves the record as its own checksum closed it. -/
theorem byteAt_closed_record (hcksum : f.cksum = .record) (h : blk.length = 32) {i : ℕ} (hi : i < f.recLen) :
    byteAt (f.closed blk) (f.recOff + i) =
      byteAt (recordStamp ((blk.drop f.recOff).take f.recLen)) i := by
  have hrec := f.rec_fit
  have hlen : (recordStamp ((blk.drop f.recOff).take f.recLen)).length = f.recLen := by
    rw [length_recordStamp, List.length_take, List.length_drop]
    omega
  unfold CtrlRow.closed
  rw [hcksum]
  dsimp only
  rw [blockStamp, byteAt_set_ne (by omega), inWindow, byteAt_overwrite (by omega) (by omega)]
  rfl

/-- So the record closes. -/
theorem closed_record_verify (hcksum : f.cksum = .record) (hpos : 0 < f.recLen) (h : blk.length = 32) :
    recordCksumVerify (fun i => byteAt (f.closed blk) (f.recOff + i)) f.recLen = true := by
  have hrec := f.rec_fit
  have hlen : ((blk.drop f.recOff).take f.recLen).length = f.recLen := by
    rw [List.length_take, List.length_drop]
    omega
  have hne : (blk.drop f.recOff).take f.recLen ≠ [] := List.length_pos_iff.mp (by omega)
  have hverify := recordStamp_verify hne
  unfold recordCksumVerify at hverify ⊢
  rwa [hlen, ← byteSum_congr fun i hi => byteAt_closed_record hcksum h hi] at hverify

end Row

/-! ## The rows of the box frames -/

section Model

variable {nCh ns : ℤ} {planar : Planes}

theorem hdrBytes_eq_ctrlHdr (dst src : Mac) (counter : UInt16) :
    hdrBytes dst src counter 0xcd 0xea = ctrlHdr dst src counter := by
  have hlow : (counter &&& 0xff).toUInt8 = counter.toUInt8 := by
    apply UInt8.toNat.inj
    rw [UInt16.toNat_toUInt8, UInt16.toNat_and, UInt16.toNat_toUInt8]
    show (counter.toNat &&& 2 ^ 8 - 1) % 2 ^ 8 = _
    rw [Nat.and_two_pow_sub_one_eq_mod, Nat.mod_mod]
  rw [hdrBytes, hlow, ctrlHdr]

/-- Silence or audio fills the frame up to the marker. -/
theorem bodyBytes_eq (f : CtrlRow) :
    bodyBytes f nCh planar ns (boxFrameLen nCh) =
      (if f.audio then braidEncode (List.replicate (nCh.toNat * 36) 0) nCh.toNat planar nCh ns
        else List.replicate (nCh.toNat * 36) 0) ++ [0xc2, 0xea] := by
  have hzero : List.replicate (boxFrameLen nCh - 50) (0 : UInt8) =
      List.replicate (nCh.toNat * 36) 0 ++ List.replicate 2 0 := by
    rw [List.replicate_append_replicate]
    congr 1
    unfold boxFrameLen
    omega
  have hplace : placeAudio f nCh planar ns 0 (List.replicate (boxFrameLen nCh - 50) 0) =
      (if f.audio then braidEncode (List.replicate (nCh.toNat * 36) 0) nCh.toNat planar nCh ns
        else List.replicate (nCh.toNat * 36) 0) ++ List.replicate 2 0 := by
    rw [hzero]
    unfold placeAudio
    split_ifs with haudio
    · have hlen := List.length_replicate (n := nCh.toNat * 36) (a := (0 : UInt8))
      rw [inWindow, List.drop_zero, List.take_left' hlen, overwrite, List.take_zero, List.nil_append,
        Nat.zero_add, length_braidEncode, hlen, List.drop_left' hlen]
    · rfl
  have hlen : (if f.audio then braidEncode (List.replicate (nCh.toNat * 36) 0) nCh.toNat planar nCh ns
      else List.replicate (nCh.toNat * 36) (0 : UInt8)).length = nCh.toNat * 36 := by
    split_ifs
    · rw [length_braidEncode, List.length_replicate]
    · rw [List.length_replicate]
  rw [bodyBytes, hplace, show boxFrameLen nCh - 52 = nCh.toNat * 36 by unfold boxFrameLen; omega, overwrite,
    List.take_left' hlen, List.drop_eq_nil_of_le (by simp [hlen]), List.append_nil]

/-- The block checksum of a 32-byte block. -/
theorem blockStamp_eq {blk : List UInt8} (h : blk.length = 32) :
    blockStamp blk = blk.take 31 ++ [0 - byteSum (byteAt blk) 31] := by
  rw [blockStamp, List.set_eq_take_append_cons_drop, if_pos (by omega), List.drop_eq_nil_of_le (by omega)]

/-- A row of box width with its model handed in. -/
theorem ctrlEmitAs_some {f : CtrlRow} (hlen : f.len ≠ .downstream) (m : BoxRow) (dst src : Mac)
    (counter : UInt16) (args : Option (List UInt8)) :
    ctrlEmitAs f (some m) dst src counter nCh args planar ns =
      if !boxWidthOk nCh then none
      else if f.gateHasIdentity ∧ !m.hasIdentityRecord then none
      else some (emitSteps f m dst src counter nCh args planar ns (boxFrameLen nCh)) := by
  unfold ctrlEmitAs
  cases boxWidthOk nCh with
  | false => simp [hlen]
  | true => simp [hlen]

/-- The frame builder of a box is the scaffold at the row of the block. -/
theorem ctrlEmitAs_model (m : BoxRow) (b : BoxBlock) (master src : Mac) (counter : UInt16) :
    ctrlEmitAs (ctrlFrames (boxBlockToCtrlFrame b)) (some m) master src counter (upstreamWidth m) none
      planar ns = ctrlBuildAs m b master src counter planar ns := by
  have hblk := length_ctrlLayBlock m b
  have hlen : (ctrlFrames (boxBlockToCtrlFrame b)).len ≠ .downstream := by
    cases b <;> simp [boxBlockToCtrlFrame, ctrlFrames]
  have hgate : (ctrlFrames (boxBlockToCtrlFrame b)).gateHasIdentity = (ctrlFrameOf b).gateHasIdentity := by
    cases b <;> rfl
  have haudio : (ctrlFrames (boxBlockToCtrlFrame b)).audio = (ctrlFrameOf b).audio := by
    cases b <;> rfl
  have hhdr : hdrBytes master src counter (ctrlFrames (boxBlockToCtrlFrame b)).type0
      (ctrlFrames (boxBlockToCtrlFrame b)).type1 = ctrlHdr master src counter := by
    cases b <;> exact hdrBytes_eq_ctrlHdr master src counter
  have hclosed : (ctrlFrames (boxBlockToCtrlFrame b)).closed
      ((ctrlFrames (boxBlockToCtrlFrame b)).filled (some m) none) =
        ctrlFinish (ctrlFrameOf b) (ctrlLayBlock m b) := by
    cases b with
    | config => exact blockStamp_eq hblk
    | cc0014 => exact blockStamp_eq hblk
    | cc0013 | cc0016 | cc001a | identFirst | identLast => rfl
  have hframe := emitSteps_eq (ctrlFrames (boxBlockToCtrlFrame b)) m master src counter (upstreamWidth m) none
    planar ns (show 52 ≤ boxFrameLen (upstreamWidth m) by unfold boxFrameLen; omega)
    (by unfold boxFrameLen; omega)
  rw [bodyBytes_eq, hclosed, hhdr, haudio] at hframe
  rw [ctrlEmitAs_some hlen, hframe, hgate]
  unfold ctrlBuildAs
  simp only [List.append_assoc]

end Model

/-! ## The head-amp record -/

section Headamp

variable {ch param value : UInt8} {dst src : Mac} {counter : UInt16}

/-- The closed block of a head-amp record. -/
def headampBlock (ch param value : UInt8) : List UInt8 :=
  (ctrlFrames .headamp).closed ((ctrlFrames .headamp).filled none (some [ch, param, value]))

theorem length_headampBlock (ch param value : UInt8) : (headampBlock ch param value).length = 32 :=
  length_closed (length_filled ..)

theorem ctrlBuildHeadamp_eq (hok : headampArgsOk param.toNat value = true) :
    ctrlBuildHeadamp dst src counter ch param value =
      some (hdrBytes dst src counter 0xcd 0xea ++ headampBlock ch param value ++
        bodyBytes (ctrlFrames .headamp) 0 none 0 frameBytes) := by
  have hsteps := emitSteps_eq (ctrlFrames .headamp) (catalogueByWidth 0) dst src counter 0
    (some [ch, param, value]) none 0 (show 52 ≤ frameBytes by decide) (by simp [ctrlFrames])
  unfold ctrlBuildHeadamp
  rw [hok]
  exact congrArg some hsteps

theorem ctrlStampHeadamp_eq (hok : headampArgsOk param.toNat value = true) (h : 50 ≤ frame.length) :
    ctrlStampHeadamp frame ch param value =
      ((frame.take 16 ++ [0xcd, 0xea]) ++ headampBlock ch param value ++ frame.drop 50, 0) := by
  unfold ctrlStampHeadamp
  rw [hok]
  exact congrArg (·, 0) (ctrlStamp_eq h _ _)

/-- The block read back from a frame that carries it. -/
theorem byteAt_headamp {head tail : List UInt8} (hhead : head.length = 18) {i : ℕ} (hi : i < 32) :
    byteAt (head ++ headampBlock ch param value ++ tail) (18 + i) = byteAt (headampBlock ch param value) i := by
  have hlen := length_headampBlock ch param value
  rw [List.append_assoc, byteAt_append_right (by omega), hhead, Nat.add_sub_cancel_left,
    byteAt_append_left (by omega)]

/-- A frame that carries the block closes twice, and its record is the one asked for. -/
theorem headampBlock_carried {head tail : List UInt8} (hhead : head.length = 18) :
    let f := head ++ headampBlock ch param value ++ tail
    headampRecordVerify f = true ∧ checksumVerify f = true ∧
      byteAt f 36 = ch ∧ byteAt f 37 = param ∧ byteAt f 38 = value := by
  intro f
  have hbyte : ∀ i < 32, byteAt f (18 + i) = byteAt (headampBlock ch param value) i :=
    fun i hi => byteAt_headamp hhead hi
  have hrec : recordCksumVerify (fun i => byteAt f (34 + i)) 6 = true := by
    have hverify := closed_record_verify (f := ctrlFrames .headamp) rfl (by decide)
      (length_filled (ctrlFrames .headamp) none (some [ch, param, value]))
    unfold recordCksumVerify at hverify ⊢
    rw [← hverify, byteSum_congr fun i hi => ?_]
    · rfl
    · rw [show 34 + i = 18 + (16 + i) by omega]
      exact hbyte (16 + i) (by omega)
  refine ⟨?_, ?_, (hbyte 18 (by omega)).trans rfl, (hbyte 19 (by omega)).trans rfl,
    (hbyte 20 (by omega)).trans rfl⟩
  · unfold headampRecordVerify
    rw [hrec]
    exact decide_eq_true ⟨(hbyte 0 (by omega)).trans rfl, (hbyte 1 (by omega)).trans rfl, rfl⟩
  · have hsum := closed_closes (f := ctrlFrames .headamp) (by decide)
      (length_filled (ctrlFrames .headamp) none (some [ch, param, value]))
    unfold checksumVerify
    rw [byteSum_congr hbyte, beq_iff_eq]
    exact hsum

/-- The record checksum closes every record, inside a block checksum that closes too; a head-amp record
stamped over a frame is the one built fresh, and the two refuse the same arguments. -/
theorem checksums_nest :
    (∀ rec : List UInt8, rec ≠ [] →
      recordCksumVerify (byteAt (recordStamp rec)) rec.length = true ∧
      byteAt (recordStamp rec) (rec.length - 1) < 0x80 ∧ (recordStamp rec).length = rec.length ∧
      ∀ i, i ≠ rec.length - 1 → byteAt (recordStamp rec) i = byteAt rec i) ∧
    (∀ ch param value, headampArgsOk param.toNat value = true →
      ∀ frame dst src counter, 50 ≤ frame.length → ∃ built stamped,
        ctrlBuildHeadamp dst src counter ch param value = some built ∧
        ctrlStampHeadamp frame ch param value = (stamped, 0) ∧
        (stamped.drop 16).take 34 = (built.drop 16).take 34 ∧
        stamped.take 16 = frame.take 16 ∧ stamped.drop 50 = frame.drop 50 ∧
        headampRecordVerify stamped = true ∧ checksumVerify stamped = true ∧
        byteAt stamped 36 = ch ∧ byteAt stamped 37 = param ∧ byteAt stamped 38 = value) ∧
    ∀ ch param value, headampArgsOk param.toNat value = false →
      ∀ frame dst src counter, ctrlBuildHeadamp dst src counter ch param value = none ∧
        ctrlStampHeadamp frame ch param value = (frame, -1) := by
  refine ⟨fun rec hrec => ⟨recordStamp_verify hrec, recordStamp_last_lt hrec, length_recordStamp rec,
    fun i hi => byteAt_set_ne hi⟩, ?_, ?_⟩
  · intro ch param value hok frame dst src counter hlong
    have hlen := length_headampBlock ch param value
    have htype : (frame.take 16 ++ [0xcd, 0xea]).length = 18 := by simp; omega
    refine ⟨_, _, ctrlBuildHeadamp_eq hok, ctrlStampHeadamp_eq hok hlong, ?_, ?_, ?_,
      headampBlock_carried htype⟩
    · have hsame : ∀ head tail : List UInt8, head.length = 16 →
          ((head ++ [0xcd, 0xea] ++ headampBlock ch param value ++ tail).drop 16).take 34 =
            [0xcd, 0xea] ++ headampBlock ch param value := by
        intro head tail hhead
        simp only [List.append_assoc]
        rw [List.drop_left' hhead, ← List.append_assoc, List.take_left' (by simp [hlen])]
      have hhdr : hdrBytes dst src counter 0xcd 0xea = dst.toList ++ src.toList ++
          [0x88, 0x19, (counter &&& 0xff).toUInt8, (counter >>> 8).toUInt8] ++ [0xcd, 0xea] := by
        simp only [hdrBytes, List.append_assoc, List.cons_append, List.nil_append]
      rw [hsame _ _ (by simp; omega), hhdr, hsame _ _ (by simp)]
    · rw [List.append_assoc, List.append_assoc, List.take_left' (by simp; omega)]
    · rw [List.drop_left' (by simp [hlen]; omega)]
  · intro ch param value hbad frame dst src counter
    unfold ctrlBuildHeadamp ctrlStampHeadamp
    rw [hbad]
    exact ⟨rfl, rfl⟩

end Headamp

end Libreac
