import Mathlib.Data.Int.Notation
import Libreac.Braid
import Libreac.Identity

/-!
# Building box frames

`reac_box_synth.c` derives the control blocks of a box from the facts of its row, and the frame
builder of `reac_ctrlblk.c` lays them into frames. The row here has every fact the seven blocks are
made of; a block is 32 bytes and its last byte makes them sum to zero.
-/

namespace Libreac

/-- A C string: no byte of it is NUL. -/
structure CString where
  bytes : List UInt8
  noNul : ∀ c ∈ bytes, c ≠ 0

/-- `struct reac_box_model`, the declared facts. -/
structure BoxRow where
  inCh : ℤ
  outCh : ℤ
  hasIdentityRecord : Bool := false
  selector : UInt8
  headampStrap : UInt8 := 0
  tail : Vector UInt8 11 := Vector.replicate 11 0
  fwMilli : UInt16 := 0
  reacMajor : UInt16 := 0
  reacMinor : UInt16 := 0
  reacPatch : UInt16 := 0
  name : Option CString := none
  splitOutFirst : Bool := false

/-- `enum reac_box_block`. -/
inductive BoxBlock where
  | config | cc0014 | cc0013 | cc0016 | cc001a | identFirst | identLast
  deriving DecidableEq, Repr

/-! ## The two checksums -/

/-- `block_check` on the bytes written so far: the others are zero, the last one closes the block. -/
def blockCheck (written : List UInt8) : List UInt8 :=
  let b := (written ++ List.replicate 31 0).take 31
  b ++ [0 - byteSum (byteAt b) 31]

/-- `dt1_check`. -/
def dt1Check (p : List UInt8) : UInt8 := (128 - (byteSum (byteAt p) p.length &&& 0x7f)) &&& 0x7f

/-! ## The blocks -/

/-- `JOIN_0014`. -/
def join0014 : List UInt8 :=
  [0x04, 0x03, 0x00, 0x14, 0x00, 0x02, 0x00, 0xfe, 0x0f, 0xf0, 0x41, 0x0a, 0x00, 0x00, 0x12, 0x12,
    0x01, 0x00, 0x06, 0x00, 0x01, 0x00, 0x78, 0xf7, 0x00, 0x00, 0x00, 0x00, 0x00, 0x00, 0x00, 0x00]

/-- `JOIN_0013`. -/
def join0013 : List UInt8 :=
  [0x04, 0x03, 0x00, 0x13, 0x00, 0x02, 0x00, 0xfe, 0x0e, 0xf0, 0x41, 0x0a, 0x00, 0x00, 0x12, 0x12,
    0x03, 0x02, 0x00, 0x01, 0x00, 0x7a, 0xf7, 0x00, 0x00, 0x00, 0x00, 0x00, 0x00, 0x00, 0x00, 0x02]

/-- `build_config`: the declaration, unless the twelve slots cannot hold the geometry. -/
def rowConfig (m : BoxRow) : Option (List UInt8) :=
  if m.inCh < 0 ∨ m.outCh < 0 then none
  else if m.inCh % 4 ≠ 0 ∨ m.outCh % 4 ≠ 0 then none
  else
    let ins := (m.inCh / 4).toNat
    let outs := (m.outCh / 4).toNat
    if 12 < ins + outs then none
    else
      let ports :=
        if m.splitOutFirst then List.replicate outs 0x01 ++ List.replicate ins 0x00
        else List.replicate ins 0x02 ++ List.replicate outs 0x01
      some (blockCheck
        ([0x01, 0x03, 0x00, 0x10, m.selector, 0x00, 0x00, m.headampStrap] ++ ports ++
          List.replicate (12 - (ins + outs)) 0x03 ++ m.tail.toList))

/-- `dt1_head`: the header, the two length echoes and the DT1 preamble up to the address. -/
def dt1Head (frag sysexLen : UInt8) (addrLo : UInt16) : List UInt8 :=
  [0x04, frag, 0x00, sysexLen + 5, 0x00, 0x02, 0x00, 0xfe, sysexLen, 0xf0, 0x41, 0x0a, 0x00, 0x00,
    0x12, 0x12, 0x05, 0x00, (addrLo >>> 8).toUInt8, addrLo.toUInt8]

/-- `build_dt1_single`: address, data, inner checksum, `f7`. -/
def buildDt1Single (addrLo : UInt16) (data : List UInt8) : List UInt8 :=
  let head := dt1Head 0x03 (7 + 4 + data.length.toUInt8 + 2) addrLo
  blockCheck (head ++ data ++ [dt1Check (head.drop 16 ++ data), 0xf7])

/-- `build_firmware`: one decimal digit a byte. -/
def buildFirmware (m : BoxRow) : Option (List UInt8) :=
  let v := m.fwMilli
  if 9999 < v then none
  else
    some (buildDt1Single 0x0000
      [(v / 1000).toUInt8, (v / 100 % 10).toUInt8, (v / 10 % 10).toUInt8, (v % 10).toUInt8])

/-- `build_reac_version`: a reserved word and the triple, big-endian. -/
def buildReacVersion (m : BoxRow) : List UInt8 :=
  buildDt1Single 0x0600
    [0x00, 0x00, (m.reacMajor >>> 8).toUInt8, m.reacMajor.toUInt8, (m.reacMinor >>> 8).toUInt8,
      m.reacMinor.toUInt8, (m.reacPatch >>> 8).toUInt8, m.reacPatch.toUInt8]

/-- `name_field`: the first sixteen bytes of the name, padded with NUL. -/
def nameField (m : BoxRow) : List UInt8 :=
  ((m.name.elim [] CString.bytes).take 16 ++ List.replicate 16 0).take 16

/-- `build_ident_first`: the head of the name record and ten bytes of the name. -/
def buildIdentFirst (m : BoxRow) : List UInt8 :=
  blockCheck (dt1Head 0x01 (7 + 4 + 1 + 10) 0x1000 ++ [0x01] ++ (nameField m).take 10)

/-- `build_ident_last`: the other six, and the checksum over the whole record. -/
def buildIdentLast (m : BoxRow) : List UInt8 :=
  blockCheck
    ([0x04, 0x02, 0x00, 6 + 2 + 5, 0x00, 0x02, 0x00, 0xfe, 6 + 2] ++ (nameField m).drop 10 ++
      [dt1Check ([0x05, 0x00, 0x10, 0x00, 0x01] ++ nameField m), 0xf7])

/-- What `reac_box_model_block` answers: 1 with the block, 0 where the row does not emit it, -1 where
its facts make none. -/
inductive BlockAnswer where
  | built (blk : List UInt8)
  | absent
  | refused
  deriving DecidableEq

/-- The answer of a generator. -/
def BlockAnswer.ofOption : Option (List UInt8) → BlockAnswer
  | some blk => .built blk
  | none => .refused

/-- `reac_box_model_block`. -/
def boxModelBlock (m : BoxRow) (b : BoxBlock) : BlockAnswer :=
  match b with
  | .config => .ofOption (rowConfig m)
  | .cc0014 => .built join0014
  | .cc0013 => .built join0013
  | .cc0016 => .ofOption (buildFirmware m)
  | .cc001a => .built (buildReacVersion m)
  | .identFirst => if m.hasIdentityRecord then .built (buildIdentFirst m) else .absent
  | .identLast => if m.hasIdentityRecord then .built (buildIdentLast m) else .absent

/-- `reac_box_width_ok`: a box is an even number of channels wide, 2 to 40. -/
def boxWidthOk (n : ℤ) : Bool := 2 ≤ n ∧ n ≤ 40 ∧ n % 2 = 0

/-- `reac_box_model_upstream_width`: an output-only row speaks at the minimum pair. -/
def upstreamWidth (m : BoxRow) : ℤ :=
  if m.inCh < 0 ∨ m.outCh < 0 then 0
  else if (m.inCh ≠ 0 ∧ !boxWidthOk m.inCh) ∨ (m.outCh ≠ 0 ∧ !boxWidthOk m.outCh) then 0
  else if m.inCh < 2 then 2
  else m.inCh

/-! ## The frames -/

/-- The rows of `CTRL_FRAMES` for the seven blocks: whether the block checksum is stamped, whether
the row needs an identity record, and whether audio rides along. -/
structure CtrlFrame where
  cksumBlock : Bool := false
  gateHasIdentity : Bool := false
  audio : Bool := false

/-- `box_block_to_ctrl_frame` and the row it names. -/
def ctrlFrameOf : BoxBlock → CtrlFrame
  | .config => { cksumBlock := true }
  | .cc0014 => { cksumBlock := true, audio := true }
  | .cc0013 | .cc0016 | .cc001a => { audio := true }
  | .identFirst | .identLast => { gateHasIdentity := true }

/-- `ctrl_lay_block`: a block the generator does not make is left zero. -/
def ctrlLayBlock (m : BoxRow) (b : BoxBlock) : List UInt8 :=
  match boxModelBlock m b with
  | .built blk => blk
  | .absent | .refused => List.replicate 32 0

/-- `ctrl_finish` on the block: the rows here ask for the block checksum or for none. -/
def ctrlFinish (f : CtrlFrame) (blk : List UInt8) : List UInt8 :=
  if f.cksumBlock then blk.take 31 ++ [0 - byteSum (byteAt blk) 31] else blk

/-- `put_hdr` with the type word `cd ea`. -/
def ctrlHdr (dst src : Mac) (counter : UInt16) : List UInt8 :=
  dst.toList ++ src.toList ++ [0x88, 0x19, counter.toUInt8, (counter >>> 8).toUInt8, 0xcd, 0xea]

/-- `reac_ctrl_build_as`; `none` is the length 0. -/
def ctrlBuildAs (m : BoxRow) (b : BoxBlock) (master src : Mac) (counter : UInt16) (planar : Planes)
    (ns : ℤ) : Option (List UInt8) :=
  let nCh := upstreamWidth m
  let f := ctrlFrameOf b
  if !boxWidthOk nCh then none
  else if f.gateHasIdentity ∧ !m.hasIdentityRecord then none
  else
    let silent := List.replicate (nCh.toNat * 36) 0
    let audio := if f.audio then braidEncode silent nCh.toNat planar nCh ns else silent
    some (ctrlHdr master src counter ++ ctrlFinish f (ctrlLayBlock m b) ++ audio ++ [0xc2, 0xea])

end Libreac
