import Mathlib.Data.UInt
import Libreac.Ctrl

/-!
# What a box says about itself

The identity page (`reac_identity.c`, and the record readers of `reac_ctrlblk.c`) and the box
catalogue a declaration is compared with (`BOX_CATALOGUE`, `reac_box_synth.c`). Neither sizes the
box: its width and head-amp base come from `portsParse` alone.
-/

namespace Libreac

/-- `struct reac_identity`. -/
structure Identity where
  fwMilli : UInt16 := 0
  hasFw : Bool := false
  modelName : List UInt8 := []
  hasModelName : Bool := false
  reacVersionMajor : UInt16 := 0
  reacVersionMinor : UInt16 := 0
  reacVersionPatch : UInt16 := 0
  reacVersionRaw : List UInt8 := List.replicate 8 0
  hasReacVersion : Bool := false
  deriving DecidableEq, Repr

/-- `firmware_milli`: four decimal digits, most significant first. -/
def firmwareMilli (p : List UInt8) : Option UInt16 :=
  match p with
  | a :: b :: c :: d :: _ =>
    if a ≤ 9 ∧ b ≤ 9 ∧ c ≤ 9 ∧ d ≤ 9 then
      some (a.toUInt16 * 1000 + b.toUInt16 * 100 + c.toUInt16 * 10 + d.toUInt16)
    else none
  | _ => none

/-- `store_model_name`: the bytes behind the kind byte up to the first NUL, at most sixteen. -/
def storeModelName (id : Identity) (p : List UInt8) : Identity :=
  let name := (p.tail.take 16).takeWhile (· ≠ 0)
  if name = [] then id else { id with modelName := name, hasModelName := true }

/-- `reac_identity_ingest`. -/
def identityIngest (id : Identity) (addrLo : UInt16) (payload : List UInt8) : Identity :=
  if addrLo = 0x0000 then
    match firmwareMilli payload with
    | some v => { id with fwMilli := v, hasFw := true }
    | none => id
  else if addrLo = 0x1000 then storeModelName id payload
  else if addrLo = 0x0600 then
    if payload.length < 8 then id
    else
      let w := fun i => u16be (byteAt payload i) (byteAt payload (i + 1))
      { id with
        reacVersionRaw := payload.take 8, reacVersionMajor := w 2, reacVersionMinor := w 4
        reacVersionPatch := w 6, hasReacVersion := true }
  else id

/-- The bytes `[off, off + n)` of the control block of a frame. -/
def blockBytes (frame : List UInt8) (off n : ℕ) : List UInt8 :=
  (List.range n).map fun i => byteAt frame (18 + off + i)

/-- `reac_ctrl_identity_reply`: the address and payload of a single-record reply. -/
def identityReply (frame : List UInt8) : Option (UInt16 × List UInt8) :=
  let p := ctrlParse frame
  let b := fun i => byteAt frame (18 + i)
  let n := (b 8).toNat
  if p.kind ≠ .grant ∨ p.dt1Tag ≠ 0x0500 then none
  else if b 14 ≠ 0x12 ∨ b 15 ≠ 0x12 then none
  else if n < 14 ∨ 32 < 9 + n then none
  else if b 9 ≠ 0xf0 ∨ b (9 + n - 1) ≠ 0xf7 then none
  else if !checksumVerify frame then none
  else if !recordCksumVerify (fun i => b (16 + i)) (n - 8) then none
  else some (u16be (b 18) (b 19), blockBytes frame 20 (n - 13))

/-- `struct reac_identity_frag`; `buf` is its first `len` bytes. -/
structure IdentityFrag where
  src : Mac := noMac
  haveFirst : Bool := false
  buf : List UInt8 := []
  deriving DecidableEq

/-- The frame is a fragment of a record, and its checksum closes. -/
def isIdentityFragment (frame : List UInt8) : Bool :=
  let b := fun i => byteAt frame (18 + i)
  50 ≤ frame.length ∧ byteAt frame 16 = 0xcd ∧ byteAt frame 17 = 0xea ∧ b 0 = 0x04 ∧
    (b 1 = 0x01 ∨ b 1 = 0x02) ∧ b 4 = 0x00 ∧ b 5 = 0x02 ∧ b 6 = 0x00 ∧ b 7 = 0xfe ∧
    b 8 ≠ 0 ∧ 9 + (b 8).toNat ≤ 31 ∧ checksumVerify frame

/-- The record two fragments make, `f0 41 dev 00 00 12 | 12 | 05 00 | addr | payload | cksum | f7`. -/
def closeRecord (r : List UInt8) : Option (UInt16 × List UInt8) :=
  let b := byteAt r
  let n := r.length
  if n < 14 ∨ b 0 ≠ 0xf0 ∨ b 1 ≠ 0x41 ∨ b 3 ≠ 0x00 ∨ b 4 ≠ 0x00 ∨ b 5 ≠ 0x12 ∨ b 6 ≠ 0x12 ∨
      b 7 ≠ 0x05 ∨ b 8 ≠ 0x00 ∨ b (n - 1) ≠ 0xf7 then none
  else if !recordCksumVerify (fun i => b (7 + i)) (n - 8) then none
  else some (u16be (b 9) (b 10), (r.drop 11).take (n - 13))

/-- `reac_ctrl_identity_fragment`: keep a first fragment, close the record on the last one. -/
def identityFragment (f : IdentityFrag) (frame : List UInt8) :
    IdentityFrag × Option (UInt16 × List UInt8) :=
  let n := (byteAt frame (18 + 8)).toNat
  if !isIdentityFragment frame then (f, none)
  else if byteAt frame (18 + 1) = 0x01 then
    ({ src := macAt frame 6, haveFirst := true, buf := blockBytes frame 9 n }, none)
  else if f.haveFirst = false ∨ f.src ≠ macAt frame 6 ∨ 64 < f.buf.length + n then
    ({ f with haveFirst := false }, none)
  else ({ f with haveFirst := false }, closeRecord (f.buf ++ blockBytes frame 9 n))

/-! ## The box catalogue -/

/-- The facts of a `struct reac_box_model` its declaration is made of. -/
structure BoxModel where
  inCh : ℕ
  outCh : ℕ
  selector : UInt8
  headampStrap : UInt8 := 0x00
  splitOutFirst : Bool := false
  tail : List UInt8 := List.replicate 11 0

/-- The tail both straps of the S-4000S carry behind the port table. -/
def s4000sTail : List UInt8 := [0x00, 0x03, 0x00, 0x00, 0x00, 0x01, 0x00, 0x00, 0x00, 0x00, 0x00]

/-- `BOX_CATALOGUE`: S-1608, S-0808, S-4000S-3208, S-4000S-0832, S-0816, S-2416, S-4000D, S-4000M
and the three FreeREAC rows. -/
def boxCatalogue : List BoxModel :=
  [{ inCh := 16, outCh := 8, selector := 0x82, headampStrap := 0x02 },
    { inCh := 8, outCh := 8, selector := 0x84 },
    { inCh := 32, outCh := 8, selector := 0x84, tail := s4000sTail },
    { inCh := 8, outCh := 32, selector := 0x84, splitOutFirst := true, tail := s4000sTail },
    { inCh := 8, outCh := 16, selector := 0x84 },
    { inCh := 24, outCh := 16, selector := 0x84 },
    { inCh := 0, outCh := 32, selector := 0x84 },
    { inCh := 32, outCh := 0, selector := 0x84 },
    { inCh := 40, outCh := 0, selector := 0x84 },
    { inCh := 0, outCh := 40, selector := 0x84 },
    { inCh := 20, outCh := 20, selector := 0x84 }]

/-- `build_config`: the declaration of a row, 31 bytes and the block checksum. -/
def buildConfig (m : BoxModel) : Option (List UInt8) :=
  let ins := m.inCh / 4
  let outs := m.outCh / 4
  if m.inCh % 4 ≠ 0 ∨ m.outCh % 4 ≠ 0 ∨ 12 < ins + outs then none
  else
    let ports :=
      if m.splitOutFirst then List.replicate outs 0x01 ++ List.replicate ins 0x00
      else List.replicate ins 0x02 ++ List.replicate outs 0x01
    let body :=
      [0x01, 0x03, 0x00, 0x10, m.selector, 0x00, 0x00, m.headampStrap] ++ ports ++
        List.replicate (12 - (ins + outs)) 0x03 ++ m.tail
    some (body ++ [0 - body.sum])

/-- `reac_box_catalogue_match`: the row whose declaration the frame carries. -/
def boxCatalogueMatch (frame : List UInt8) : Option ℕ :=
  if (ctrlParse frame).kind ≠ .configAnnounce then none
  else boxCatalogue.findIdx? fun m => buildConfig m = some (blockBytes frame 0 32)

end Libreac
