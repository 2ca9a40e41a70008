import Mathlib.Data.Int.Notation
import Libreac.Bytes
import Libreac.MasterFsm

/-!
# Reading control frames

The parser of `reac_ctrlblk.c`, the port table of `reac_ports.c`, the classifier of `reac_ctrl.c`
and the frame-length and pace facts of `reac.c`. A frame is
`dst[6] src[6] ethertype[2] counter[2] type[2] block[32] audio…`.
-/

namespace Libreac

/-- `enum reac_ctrl_kind`. -/
inductive CtrlKind where
  | none | filler | sceneTransfer | masterHb | masterAnnounce | grant | headamp | boxHb
  | splitAnnounce | configAnnounce | groupMap | recordFragment | link2 | unknownCtrl
  deriving DecidableEq, Repr

/-- `struct reac_ctrl_parsed`. -/
structure CtrlParsed where
  kind : CtrlKind
  src : Mac := noMac
  dst : Mac := noMac
  isBroadcast : Bool := false
  counter : UInt16 := 0
  link : UInt8 := 0
  seg : UInt8 := 0
  blkLen : UInt16 := 0
  opcode : UInt8 := 0
  dt1Tag : UInt16 := 0
  ch : UInt8 := 0
  param : UInt8 := 0
  value : UInt8 := 0

/-- A big-endian 16-bit word. -/
def u16be (hi lo : UInt8) : UInt16 := hi.toUInt16 <<< 8 ||| lo.toUInt16

/-- `reac_frame_counter`: bytes 14 and 15, little-endian. -/
def frameCounter (frame : List UInt8) : UInt16 := u16be (byteAt frame 15) (byteAt frame 14)

/-- `kind_of_link1`: the link-1 opcodes. -/
def kindOfLink1 (opcode : UInt8) : CtrlKind :=
  if opcode = 0x00 then .sceneTransfer
  else if opcode = 0x01 then .masterHb
  else if opcode = 0x10 then .groupMap
  else if opcode = 0x81 then .boxHb
  else if opcode = 0x82 ∨ opcode = 0x80 ∨ opcode = 0x84 then .configAnnounce
  else .unknownCtrl

/-- `reac_ctrl_parse`. -/
def ctrlParse (frame : List UInt8) : CtrlParsed :=
  if frame.length < 50 ∨ byteAt frame 12 ≠ 0x88 ∨ byteAt frame 13 ≠ 0x19 then { kind := .none }
  else
    let b := fun i => byteAt frame (18 + i)
    let p : CtrlParsed :=
      { kind := .unknownCtrl, dst := macAt frame 0, src := macAt frame 6
        isBroadcast := macAt frame 0 == broadcastMac, counter := frameCounter frame
        link := b 0, seg := b 1, blkLen := u16be (b 2) (b 3), opcode := b 4 }
    let t0 := byteAt frame 16
    let t1 := byteAt frame 17
    if t0 = 0x00 ∧ t1 = 0x00 then { p with kind := .filler }
    else if t0 = 0xcf ∧ t1 = 0xea then { p with kind := .masterAnnounce }
    else if t0 = 0xce ∧ t1 = 0xea then { p with kind := .splitAnnounce }
    else if t0 ≠ 0xcd ∨ t1 ≠ 0xea then p
    else if p.link = 1 then { p with kind := kindOfLink1 p.opcode }
    else if p.link = 2 then { p with kind := .link2 }
    else if p.link = 4 then
      if p.seg ≠ 0x03 then { p with kind := .recordFragment }
      else
        let tag := u16be (b 16) (b 17)
        if b 14 = 0x12 ∧ b 15 = 0x12 ∧ tag = 0x0101 then
          { p with kind := .headamp, dt1Tag := tag, ch := b 18, param := b 19, value := b 20 }
        else { p with kind := .grant, dt1Tag := tag }
    else p

/-- `reac_frame_clean_len`: a capture may leave two bytes of FCS behind the end marker. -/
def frameCleanLen (len : ℕ) : ℕ := if 54 ≤ len ∧ (len - 52) % 36 = 2 then len - 2 else len

/-- The frame without those bytes. -/
def cleanFrame (bytes : List UInt8) : List UInt8 := bytes.take (frameCleanLen bytes.length)

/-- `reac_upstream_channels` answers: the length is that of an even width from 2 to 40. -/
def upstreamLenOk (len : ℕ) : Bool :=
  52 + 2 * 36 ≤ len ∧ (len - 52) % 36 = 0 ∧ (len - 52) / 36 ≤ 40 ∧ (len - 52) / 36 % 2 = 0

/-- `reac_upstream_channels`, 0 if the length is not that of a stream. -/
def upstreamChannels (len : ℕ) : ℕ := if upstreamLenOk len then (len - 52) / 36 else 0

/-- `reac_pace_code`: 1 at 96 kHz, 2 at 44.1 kHz, 0 at 48 kHz. -/
def paceCode (fps : ℤ) : UInt8 := if 8000 ≤ fps then 1 else if fps ≤ 3700 then 2 else 0

/-- `reac_ctrl_classify_box_frame`: the event a box frame stands for, if any. -/
def classifyBoxFrame (frame : List UInt8) (ourMac : Mac) : Option (CtrlParsed × RxEvent) :=
  let p := ctrlParse frame
  if p.kind = .none then .none
  -- Roland OUI only, and never our own echo.
  else if p.src[0] ≠ 0x00 ∨ p.src[1] ≠ 0x40 ∨ p.src[2] ≠ 0xab then .none
  else if p.src = ourMac then .none
  -- A corrupt control frame is evidence of nothing; FILLER is checksum-exempt.
  else if p.kind ≠ .filler ∧ !checksumVerify frame then .none
  else if p.kind = .grant then
    if p.opcode = 0x00 ∧ (p.dt1Tag = 0x0100 ∨ p.dt1Tag = 0x0302) then some (p, .join) else .none
  else if p.isBroadcast then
    if p.kind = .filler then some (p, .bcastFiller) else .none
  else if p.dst ≠ ourMac then .none
  else if p.kind = .boxHb then some (p, .heartbeat)
  -- On link 1 the cleared heartbeat opcode is the bulk opcode: a SINGLE one is the box's BYE.
  else if p.kind = .sceneTransfer ∧ p.seg = 0x03 then some (p, .bye)
  else if p.kind = .configAnnounce then some (p, .config)
  else some (p, .unicast)

/-! ## The port table -/

/-- `struct reac_box_ports`. -/
structure BoxPorts where
  inCh : ℕ
  outCh : ℕ
  headampBase : ℕ
  deriving DecidableEq, Repr

/-- The twelve slot codes of the port table. -/
def portCodes (frame : List UInt8) : List UInt8 :=
  (List.range 12).map fun i => byteAt frame (18 + 8 + i)

/-- `reac_ports_parse` on the control block of a frame: four channels for each input or output
slot, and the chassis strap times sixteen as the head-amp base. -/
def portsParse (frame : List UInt8) : Option BoxPorts :=
  let b := fun i => byteAt frame (18 + i)
  if b 0 ≠ 1 ∨ b 1 ≠ 0x03 then none
  else if b 4 ≠ 0x82 ∧ b 4 ≠ 0x80 ∧ b 4 ≠ 0x84 then none
  else some
    { inCh := 4 * (portCodes frame).countP (fun c => c = 0x02 ∨ c = 0x00)
      outCh := 4 * (portCodes frame).countP (fun c => c = 0x01)
      headampBase := (b 7).toNat * 16 }

/-- `reac_ports_unknown`: four channels for each slot code the table does not know. -/
def portsUnknown (frame : List UInt8) : Option ℕ :=
  let b := fun i => byteAt frame (18 + i)
  if b 0 ≠ 1 ∨ b 1 ≠ 0x03 then none
  else if b 4 ≠ 0x82 ∧ b 4 ≠ 0x80 ∧ b 4 ≠ 0x84 then none
  else some (4 * (portCodes frame).countP fun c => ¬ (c = 0x02 ∨ c = 0x00 ∨ c = 0x01 ∨ c = 0x03))

end Libreac
