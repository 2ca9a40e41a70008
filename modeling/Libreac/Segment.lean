import Libreac.PacerLoop
import Libreac.Scaffold
import Libreac.Slave
import Libreac.Wire

/-!
# A desk and a box on one segment

The pacer and the slave engine with the bytes they put on the wire. `deskFrame` is the frame of a slot of
`pacer_loop`: what the ring held or a silent filler, with the counter and the control block of the slot.
`BoxUnit.frame` is the frame of a decision of `emit_decision` towards a desk, built from the box's row or
from its width alone. `segment` is the two of them on one wire, in any order of their steps.
-/

namespace Libreac

open Reactive (Duplex Machine Station duplex)

/-! ## The frames of the desk -/

/-- A frame the host queued: the arguments it called `reac_downstream_build` with, beside the address of
the pacer. -/
structure QueuedFrame where
  planar : Planes
  nch : ℤ
  ns : ℤ
  counter : UInt16

/-- `build_silent_filler`. -/
def silentFiller (src : Mac) : List UInt8 :=
  broadcastMac.toList ++ src.toList ++ [0x88, 0x19] ++ List.replicate 1476 0 ++ [0xc2, 0xea]

/-- The frame a slot starts from. -/
def slotFrame (src : Mac) (q : Option QueuedFrame) : List UInt8 :=
  match q with
  | some q => downstreamBuild q.planar q.nch q.ns q.counter src
  | none => silentFiller src

/-- The frame of a slot. The descriptor of a filler goes to `[18:50]` only; its type word `00 00` is there
already. -/
def deskFrame (src : Mac) (q : Option QueuedFrame) (s : Sent) : List UInt8 :=
  let frame := overwrite (slotFrame src q) 14 [s.counter.toUInt8, (s.counter >>> 8).toUInt8]
  match s.ctrl with
  | some t => overwrite frame 16 t.toList
  | none => frame

/-- The frame a pacer reads. -/
def PacerInput.frame? : PacerInput → Option (List UInt8)
  | .frame bytes => some bytes
  | _ => none

/-- The pacer on the wire; with a slot comes what the ring holds for it. -/
def deskStation (env : Env) : Station Pacer (PacerInput × Option QueuedFrame) (List UInt8) where
  machine := ⟨fun p i =>
    let (p', out) := pacerStep env p i.1
    (p', out.sent.map (deskFrame p.src i.2))⟩
  hears i := i.1.frame?

/-! ## The frames of a box -/

/-- What of `struct reac_slave_cfg` makes the frames of a box on a desk's wire. -/
structure BoxUnit where
  src : Mac
  sampleRate : ℤ := 0
  model : Option BoxRow := none
  boxChannels : ℤ := 0

/-- `box_channels` as `reac_slave_fsm_init` derives it: the row's width, else the one asked for. -/
def BoxUnit.channels (u : BoxUnit) : ℤ :=
  match u.model with
  | some m => upstreamWidth m
  | none => if 0 < u.boxChannels then min u.boxChannels 40 else 16

/-- `ch_base`: the strap of the row, else the rule by width. -/
def BoxUnit.chBase (u : BoxUnit) : ℤ :=
  match u.model with
  | some m => m.headampStrap.toNat * 0x10
  | none => if u.channels = 16 then 0x20 else 0x00

/-- `slave_build_block`. -/
def BoxUnit.buildBlock (u : BoxUnit) (b : BoxBlock) (master : Mac) (counter : UInt16) (planar : Planes)
    (ns : ℤ) : Option (List UInt8) :=
  match u.model with
  | some m => ctrlBuildAs m b master u.src counter planar ns
  | none =>
    ctrlEmitAs (ctrlFrames (boxBlockToCtrlFrame b)) none master u.src counter u.channels none planar ns

/-- The frame of a decision of `emit_decision`. Three bodies only go to a stagebox that masters the wire. -/
def BoxUnit.frame (u : BoxUnit) (master : Mac) (counter : UInt16) (planar : Planes) :
    SlaveBody → Option (List UInt8)
  | .floodFiller =>
    ctrlEmitAs (ctrlFrames .floodFiller) none broadcastMac u.src counter u.channels none planar samplesPerPkt
  | .upstreamFiller =>
    ctrlEmitAs (ctrlFrames .upstreamFiller) none master u.src counter u.channels none planar samplesPerPkt
  | .record .boxHb =>
    ctrlEmitAs (ctrlFrames .boxHb) none master u.src counter u.channels none none 0
  | .record .cc0014 => u.buildBlock .cc0014 master counter planar samplesPerPkt
  | .record .cc0013 => u.buildBlock .cc0013 master counter planar samplesPerPkt
  | .record .cc0016 => u.buildBlock .cc0016 master counter planar samplesPerPkt
  | .record .cc001a => u.buildBlock .cc001a master counter planar samplesPerPkt
  | .record .config => u.buildBlock .config master counter none 0
  | .record .identFirst => u.buildBlock .identFirst master counter none 0
  | .record .identLast => u.buildBlock .identLast master counter none 0
  | .downstream | .record .ccHead | .record .configBoxMaster => none

/-- The configuration of the slave engine. -/
def BoxUnit.cfg (u : BoxUnit) : SlaveCfg where
  src := u.src
  fps := u.sampleRate.tdiv samplesPerPkt
  boxChannels := u.channels.toNat
  chBase := u.chBase
  builds body := (u.frame noMac 0 none body).isSome

/-- The frame a slave reads. -/
def SlaveEvent.frame? : SlaveEvent → Option (List UInt8)
  | .frame bytes => some bytes
  | _ => none

/-- The slave engine on the wire; with a pass comes the audio of the frame it may send. -/
def boxStation (u : BoxUnit) : Station Slave (SlaveInput × Planes) (List UInt8) where
  machine := ⟨fun s i =>
    let (s', f) := slaveLoop u.cfg s i.1
    (s', f.bind fun f => u.frame s'.fsm.masterMac f.counter i.2 f.body)⟩
  hears i := i.1.ev.frame?

/-! ## The two together -/

/-- A step of the desk or of the box. -/
abbrev SegmentInput := (PacerInput × Option QueuedFrame) ⊕ (SlaveInput × Planes)

/-- The desk and the box on one wire. -/
def segment (env : Env) (u : BoxUnit) :
    Machine (Duplex Pacer Slave (List UInt8)) SegmentInput (Option (List UInt8)) :=
  duplex (deskStation env) (boxStation u)

/-- The desk as it opens and the box as it starts, on a wire that is still empty. -/
def segmentStart (env : Env) (cfg : PacerCfg) (u : BoxUnit) : Duplex Pacer Slave (List UInt8) :=
  ⟨pacerOpen env cfg, slaveFsmInit u.cfg, []⟩

end Libreac
