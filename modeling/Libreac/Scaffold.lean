import Libreac.BoxSynth
import Libreac.Grant

/-!
# The control-frame scaffold

`ctrl_emit_as` and `ctrl_stamp` of `reac_ctrlblk.c` over a frame buffer, one row of `CTRL_FRAMES` at a
time: a row says where its 32-byte block comes from, which bytes of it the caller supplies, and which
checksums close it. A row cannot name a window outside its block.
-/

namespace Libreac

/-! ## The two checksums -/

/-- A call on the bytes `[off, off + n)` of a buffer. -/
def inWindow (off n : ℕ) (f : List UInt8 → List UInt8) (buf : List UInt8) : List UInt8 :=
  overwrite buf off (f ((buf.drop off).take n))

/-- `reac_ctrl_record_cksum_stamp`. -/
def recordStamp (rec : List UInt8) : List UInt8 :=
  rec.set (rec.length - 1) ((0x80 - (byteSum (byteAt rec) (rec.length - 1) &&& 0x7f)) &&& 0x7f)

/-- `reac_ctrl_block_cksum_stamp`. -/
def blockStamp (block : List UInt8) : List UInt8 := block.set 31 (0 - byteSum (byteAt block) 31)

/-! ## The rows -/

/-- `enum ctrl_block`, with the template of a `BLOCK_TMPL` row and the block of a matrix row. -/
inductive CtrlBlock where
  | zero
  | desc
  | tmpl (t : Block)
  | model (b : BoxBlock)

/-- `enum ctrl_len`. -/
inductive CtrlLen where
  | argWidth | modelWidth | downstream
  deriving DecidableEq

/-- `enum ctrl_cksum`. -/
inductive CtrlCksum where
  | none | block | record
  deriving DecidableEq

/-- `struct ctrl_frame`. -/
structure CtrlRow where
  type0 : UInt8
  type1 : UInt8
  block : CtrlBlock
  argOff : ℕ := 0
  argLen : ℕ := 0
  recOff : ℕ := 0
  recLen : ℕ := 0
  cksum : CtrlCksum
  len : CtrlLen
  gateHasIdentity : Bool := false
  audio : Bool := false
  args_fit : argOff + argLen ≤ 32 := by decide
  /-- The record ends in front of the block checksum. -/
  rec_fit : recOff + recLen ≤ 31 := by decide

/-- `TMPL_BOX_HB`. -/
def tmplBoxHb : Block :=
  #v[0x01, 0x03, 0x00, 0x01, 0x81, 0x00, 0x00, 0x00, 0x00, 0x00, 0x00, 0x00, 0x00, 0x00, 0x00, 0x00,
    0x00, 0x00, 0x00, 0x00, 0x00, 0x00, 0x00, 0x00, 0x00, 0x00, 0x00, 0x00, 0x00, 0x00, 0x00, 0x00]

/-- `TMPL_HEADAMP`. -/
def tmplHeadampBlock : Block :=
  #v[0x04, 0x03, 0x00, 0x13, 0x00, 0x02, 0x00, 0xfe, 0x13 - 5, 0xf0, 0x41, 0x0a, 0x00, 0x00, 0x12, 0x12,
    0x01, 0x01, 0x00, 0x00, 0x00, 0x00, 0xf7, 0x00, 0x00, 0x00, 0x00, 0x00, 0x00, 0x00, 0x00, 0x00]

/-- `enum ctrl_frame_id`. -/
inductive CtrlFrameId where
  | boxHb | upstreamFiller | floodFiller | configAnnounce | identFirst | coldconnect | coldconnect0013
  | coldconnect0016 | coldconnect001a | identLast | headamp
  deriving DecidableEq

/-- `CTRL_FRAMES`. -/
def ctrlFrames : CtrlFrameId → CtrlRow
  | .boxHb => { type0 := 0xcd, type1 := 0xea, block := .tmpl tmplBoxHb, cksum := .block, len := .argWidth }
  | .upstreamFiller =>
    { type0 := 0x00, type1 := 0x00, block := .desc, cksum := .none, len := .argWidth, audio := true }
  | .floodFiller =>
    { type0 := 0x00, type1 := 0x00, block := .zero, cksum := .none, len := .argWidth, audio := true }
  | .configAnnounce =>
    { type0 := 0xcd, type1 := 0xea, block := .model .config, cksum := .block, len := .modelWidth }
  | .identFirst =>
    { type0 := 0xcd, type1 := 0xea, block := .model .identFirst, cksum := .none, len := .modelWidth
      gateHasIdentity := true }
  | .coldconnect =>
    { type0 := 0xcd, type1 := 0xea, block := .model .cc0014, cksum := .block, len := .argWidth, audio := true }
  | .coldconnect0013 =>
    { type0 := 0xcd, type1 := 0xea, block := .model .cc0013, cksum := .none, len := .argWidth, audio := true }
  | .coldconnect0016 =>
    { type0 := 0xcd, type1 := 0xea, block := .model .cc0016, cksum := .none, len := .argWidth, audio := true }
  | .coldconnect001a =>
    { type0 := 0xcd, type1 := 0xea, block := .model .cc001a, cksum := .none, len := .argWidth, audio := true }
  | .identLast =>
    { type0 := 0xcd, type1 := 0xea, block := .model .identLast, cksum := .none, len := .modelWidth
      gateHasIdentity := true }
  | .headamp =>
    { type0 := 0xcd, type1 := 0xea, block := .tmpl tmplHeadampBlock, argOff := 18, argLen := 3, recOff := 16
      recLen := 6, cksum := .record, len := .downstream }

/-- `box_block_to_ctrl_frame`. -/
def boxBlockToCtrlFrame : BoxBlock → CtrlFrameId
  | .config => .configAnnounce
  | .cc0014 => .coldconnect
  | .cc0013 => .coldconnect0013
  | .cc0016 => .coldconnect0016
  | .cc001a => .coldconnect001a
  | .identFirst => .identFirst
  | .identLast => .identLast

/-! ## The matrix by width -/

/-- The catalogue's name of the S-0808. -/
def boxNameS0808 : List UInt8 := [0x53, 0x2d, 0x30, 0x38, 0x30, 0x38]

theorem boxNameS0808_noNul : ∀ c ∈ boxNameS0808, c ≠ 0 := by simp [boxNameS0808]

/-- The rows of `BOX_CATALOGUE` that were captured: S-1608, S-0808, S-4000S-3208, S-4000S-0832. -/
def boxCaptured : List BoxRow :=
  [{ inCh := 16, outCh := 8, selector := 0x82, headampStrap := 0x02, fwMilli := 2200, reacMajor := 2
     reacMinor := 3, reacPatch := 2 },
    { inCh := 8, outCh := 8, selector := 0x84, hasIdentityRecord := true, fwMilli := 1003, reacMajor := 1
      name := some ⟨boxNameS0808, boxNameS0808_noNul⟩ },
    { inCh := 32, outCh := 8, selector := 0x84, tail := Vector.ofFn fun i => s4000sTail.getD i 0
      fwMilli := 2500, reacMajor := 2, reacMinor := 1, reacPatch := 2 },
    { inCh := 8, outCh := 32, selector := 0x84, tail := Vector.ofFn fun i => s4000sTail.getD i 0
      fwMilli := 2500, reacMajor := 2, reacMinor := 1, reacPatch := 2, splitOutFirst := true }]

/-- `reac_box_catalogue_by_width`: a width names a captured row, and the S-1608 otherwise. -/
def catalogueByWidth (inCh : ℤ) : BoxRow :=
  (boxCaptured.find? (·.inCh = inCh)).getD (boxCaptured.head (by simp [boxCaptured]))

/-! ## The six steps -/

/-- The bytes `put_hdr` writes. -/
def hdrBytes (dst src : Mac) (counter : UInt16) (t0 t1 : UInt8) : List UInt8 :=
  dst.toList ++ src.toList ++ [0x88, 0x19, (counter &&& 0xff).toUInt8, (counter >>> 8).toUInt8, t0, t1]

/-- `put_hdr`. -/
def putHdr (f : List UInt8) (dst src : Mac) (counter : UInt16) (t0 t1 : UInt8) : List UInt8 :=
  overwrite f 0 (hdrBytes dst src counter t0 t1)

/-- The block of a row, before the caller's bytes: a missing model makes none. -/
def CtrlRow.source (f : CtrlRow) (m : Option BoxRow) : List UInt8 :=
  match f.block with
  | .zero => List.replicate 32 0
  | .desc => (List.replicate 16 [0x00, 0x7a]).flatten
  | .tmpl t => t.toList
  | .model b => m.elim (List.replicate 32 0) fun m => ctrlLayBlock m b

/-- `ctrl_lay_block`. -/
def layBlock (frame : List UInt8) (f : CtrlRow) (m : Option BoxRow) (args : Option (List UInt8)) :
    List UInt8 :=
  let frame := overwrite frame 18 (f.source m)
  match args with
  | none => frame
  | some args => if f.argLen ≠ 0 then overwrite frame (18 + f.argOff) (args.take f.argLen) else frame

/-- `ctrl_finish`: the record checksum is one of the bytes the block checksum covers. -/
def finishBlock (frame : List UInt8) (f : CtrlRow) : List UInt8 :=
  match f.cksum with
  | .record => inWindow 18 32 blockStamp (inWindow (18 + f.recOff) f.recLen recordStamp frame)
  | .block => inWindow 18 32 blockStamp frame
  | .none => frame

/-- `reac_ctrl_box_frame_len`. -/
def boxFrameLen (nCh : ℤ) : ℕ := 50 + nCh.toNat * 36 + 2

/-- The audio behind offset `off` of a frame, on the rows that carry it. -/
def placeAudio (f : CtrlRow) (nCh : ℤ) (planar : Planes) (ns : ℤ) (off : ℕ) (out : List UInt8) :
    List UInt8 :=
  if f.audio then
    inWindow off (nCh.toNat * 36) (fun audio => braidEncode audio nCh.toNat planar nCh ns) out
  else out

/-- The six steps of `ctrl_emit_as`, for a frame of `len` bytes. -/
def emitSteps (f : CtrlRow) (m : BoxRow) (dst src : Mac) (counter : UInt16) (nCh : ℤ)
    (args : Option (List UInt8)) (planar : Planes) (ns : ℤ) (len : ℕ) : List UInt8 :=
  let out := putHdr (List.replicate len 0) dst src counter f.type0 f.type1
  let out := layBlock out f (some m) args
  let out := placeAudio f nCh planar ns 50 out
  let out := finishBlock out f
  overwrite out (len - 2) [0xc2, 0xea]

/-- `ctrl_emit_as`; `none` is the length 0, else the bytes written. -/
def ctrlEmitAs (f : CtrlRow) (model : Option BoxRow) (dst src : Mac) (counter : UInt16) (nCh : ℤ)
    (args : Option (List UInt8)) (planar : Planes) (ns : ℤ) : Option (List UInt8) :=
  if f.len = .argWidth ∧ !boxWidthOk nCh then none
  else if f.len ≠ .downstream ∧ (model.isSome ∨ f.len = .modelWidth) ∧ !boxWidthOk nCh then none
  else
    let m := model.getD (catalogueByWidth nCh)
    if f.gateHasIdentity ∧ !m.hasIdentityRecord then none
    else
      let modelW := if model.isSome then nCh else m.inCh
      let len := if f.len = .downstream then frameBytes
        else boxFrameLen (if f.len = .modelWidth then modelW else nCh)
      some (emitSteps f m dst src counter nCh args planar ns len)

/-- `ctrl_stamp`. -/
def ctrlStamp (frame : List UInt8) (f : CtrlRow) (args : List UInt8) : List UInt8 :=
  finishBlock (layBlock (overwrite frame 16 [f.type0, f.type1]) f none (some args)) f

/-! ## The head-amp record -/

/-- `reac_ctrl_build_headamp`. -/
def ctrlBuildHeadamp (master src : Mac) (counter : UInt16) (ch param value : UInt8) : Option (List UInt8) :=
  if !headampArgsOk param.toNat value then none
  else ctrlEmitAs (ctrlFrames .headamp) none master src counter 0 (some [ch, param, value]) none 0

/-- `reac_ctrl_stamp_headamp`, with what it returns. -/
def ctrlStampHeadamp (frame : List UInt8) (ch param value : UInt8) : List UInt8 × ℤ :=
  if !headampArgsOk param.toNat value then (frame, -1)
  else (ctrlStamp frame (ctrlFrames .headamp) [ch, param, value], 0)

end Libreac
