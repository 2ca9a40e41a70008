import Libreac.Rx
import Libreac.SlaveFsm

/-!
# The slave engine

The loop of `reac_slave.c` around the state machine: a received frame or an idle timeout is one
step, a step puts at most one frame on the wire, and the counter of that frame is locked to the
counter of the learned master. On a wire a stagebox masters (`boxMaster`) the same decisions ride in
other frames. Audio and gain are not modelled.
-/

namespace Libreac

open Reactive

/-- `enum reac_slave_emit`. -/
inductive SlaveEmit where
  | none | floodFiller | coldconnect | upstreamAudio | heartbeat
  deriving DecidableEq, Repr

/-- `struct reac_slave_decision`. -/
structure SlaveDecision where
  emit : SlaveEmit
  withHeartbeat : Bool := false
  withJoin : Bool := false
  state : FsmState
  deriving DecidableEq, Repr

/-- `map_action`. -/
def mapAction (o : FsmOut) : SlaveDecision :=
  match o.action with
  | .floodBcast => { emit := .floodFiller, state := o.state }
  | .unicastColdconnect => { emit := .coldconnect, withJoin := o.emitJoin, state := o.state }
  | .unicastAudio => { emit := .upstreamAudio, withHeartbeat := o.emitHeartbeat, state := o.state }
  | .silence | .stop | .none => { emit := .none, state := o.state }

/-- The control records a slave emits: the captured cold-connect variants, its declaration, its
heartbeat and the two halves of its identity; `ccHead` and `configBoxMaster` go to a stagebox that
masters the wire. -/
inductive SlaveRecord where
  | cc0014 | cc0013 | cc0016 | cc001a | config | boxHb | identFirst | identLast
  | ccHead | configBoxMaster
  deriving DecidableEq, Repr

/-- The escalation of `emit_decision`: the record of a grid slot, by `coldconnect_phase % 8`. -/
def escalationRecord (phase : ℕ) : SlaveRecord :=
  match phase % 8 with
  | 1 => .cc0013
  | 2 => .cc0016
  | 3 => .cc001a
  | 4 => .config
  | 5 => .boxHb
  | 6 => .identFirst
  | 7 => .identLast
  | _ => .cc0014

/-- What a slave frame is built as. -/
inductive SlaveBody where
  | floodFiller | upstreamFiller | downstream
  | record (r : SlaveRecord)
  deriving DecidableEq, Repr

/-- A frame on the wire. -/
structure SlaveFrame where
  counter : UInt16
  broadcast : Bool
  body : SlaveBody
  /-- The control block laid over a frame for a stagebox master. -/
  stamp : Option SlaveRecord := none
  deriving DecidableEq, Repr

/-- The facts of `struct reac_slave_cfg` the loop reads. -/
structure SlaveCfg where
  src : Mac
  /-- `sample_rate / REAC_SAMPLES_PER_PKT`, 0 if the rate is not known. -/
  fps : ℤ := 0
  boxChannels : ℕ := 16
  chBase : ℤ := 0x20
  boxMaster : Bool := false
  bmFrameBox : Bool := false
  bmBurstChanmap : Bool := false
  bmPresilenceMs : ℕ := 0
  /-- Whether the builder of this body has a frame for our row and width. -/
  builds : SlaveBody → Bool := fun _ => true

/-- The `bm_` fields of `struct reac_slave`; times are in nanoseconds. -/
structure BoxMaster where
  sawCfea : Bool := false
  lastSceneNs : UInt64 := 0
  burstSentNs : UInt64 := 0
  listened : Bool := false
  announceSent : Bool := false
  burstJustEnded : Bool := false
  startNs : UInt64 := 0
  seq : ℕ := 0
  burst : ℕ := 0
  chanmapHit : Bool := false
  announced : Bool := false

/-- `struct reac_slave`. -/
structure Slave where
  fsm : ReacFsm
  phyUpSeen : Bool := false
  counterOffset : UInt16 := 0
  counterLocked : Bool := false
  coldconnectPhase : ℕ := 0
  bm : BoxMaster := {}
  haSens : ℕ → UInt8 := fun _ => 0
  haPad : ℕ → UInt8 := fun _ => 0
  haPhantom : ℕ → UInt8 := fun _ => 0

/-- `reac_slave_fsm_init`. -/
def slaveFsmInit (cfg : SlaveCfg) : Slave :=
  { fsm := if 0 < cfg.fps then { reacFsmInit with heartbeatPeriod := cfg.fps } else reacFsmInit }

/-- `reac_slave_step_rx`, `_tick` and `_phy`: one step of the state machine. -/
def slaveStep (s : Slave) (ev : FsmEvent) : Slave × SlaveDecision :=
  let (fsm, o) := reacFsmStep s.fsm ev
  ({ s with fsm }, mapAction o)

/-! ## Received head-amp records -/

/-- `reac_ctrl_headamp_record_verify`: six bytes of a complete record. -/
def headampRecordVerify (frame : List UInt8) : Bool :=
  byteAt frame 18 = 0x04 ∧ byteAt frame 19 = 0x03 ∧ recordCksumVerify (fun i => byteAt frame (34 + i)) 6

/-- `reac_slave_headamp_rx`, without the gain it precomputes. -/
def slaveHeadampRx (cfg : SlaveCfg) (s : Slave) (p : CtrlParsed) : Slave :=
  let idx := (p.ch.toNat : ℤ) - cfg.chBase
  let put (cells : ℕ → UInt8) (v : UInt8) : ℕ → UInt8 := Function.update cells idx.toNat v
  let flag : UInt8 := if p.value = 0 then 0 else 1
  if idx < 0 ∨ (cfg.boxChannels : ℤ) ≤ idx then s
  else if p.param = 0 then { s with haPhantom := put s.haPhantom flag }
  else if p.param = 1 then { s with haPad := put s.haPad flag }
  else if p.param = 2 then { s with haSens := put s.haSens p.value }
  else s

/-! ## What a decision puts on the wire -/

/-- The body of a record slot: a row without an identity sends a filler in its place. -/
def recordBody (cfg : SlaveCfg) (r : SlaveRecord) : SlaveBody :=
  if (r = .identFirst ∨ r = .identLast) ∧ !cfg.builds (.record r) then .upstreamFiller else .record r

/-- `emit_decision` towards a desk: exactly one frame for each decision that is not `none`. -/
def emitDesk (cfg : SlaveCfg) (s : Slave) (d : SlaveDecision) : Slave × Option SlaveFrame :=
  let frame (broadcast : Bool) (body : SlaveBody) : Option SlaveFrame :=
    if cfg.builds body then some { counter := s.fsm.counter, broadcast, body } else none
  match d.emit with
  | .none => (s, none)
  | .floodFiller => (s, frame true .floodFiller)
  | .coldconnect =>
    if d.withJoin then
      ({ s with coldconnectPhase := s.coldconnectPhase + 1 },
        frame false (recordBody cfg (escalationRecord s.coldconnectPhase)))
    else (s, frame false .upstreamFiller)
  | .upstreamAudio =>
    (s, frame false (if d.withHeartbeat then .record .boxHb else .upstreamFiller))
  | .heartbeat => (s, frame false (.record .boxHb))

/-- `bm_scene_quiet`. -/
def bmSceneQuiet (bm : BoxMaster) (now : UInt64) : Bool :=
  bm.lastSceneNs = 0 ∨ 200000000 ≤ now - bm.lastSceneNs

/-- The opening window of silence, two announce cadences unless it is configured. -/
def bmHoldNs (cfg : SlaveCfg) : UInt64 :=
  UInt64.ofNat (1000000 * if 0 < cfg.bmPresilenceMs then cfg.bmPresilenceMs else 2500)

/-- The window opens with the first decision. -/
def bmOpen (bm : BoxMaster) (now : UInt64) : BoxMaster :=
  if bm.startNs = 0 then { bm with startNs := now } else bm

/-- The opening window is not over yet. -/
def bmListens (cfg : SlaveCfg) (bm : BoxMaster) (now : UInt64) : Bool :=
  now - bm.startNs < bmHoldNs cfg

/-- The end of the window: the flood is counted from the first frame sent, unless the master has
announced itself meanwhile. -/
def bmSpeak (s : Slave) : Slave :=
  if s.bm.listened then s
  else
    { s with
      bm := { s.bm with listened := true }
      fsm := if s.bm.sawCfea then s.fsm else { s.fsm with floodFrames := 0 } }

/-- `bm_presilent`: listen before speaking. -/
def bmPresilent (cfg : SlaveCfg) (s : Slave) (now : UInt64) : Slave × Bool :=
  let s := { s with bm := bmOpen s.bm now }
  if bmListens cfg s.bm now then (s, true) else (bmSpeak s, false)

/-- One record of the three-frame cold-connect burst. -/
def bmBurstRecord (bm : BoxMaster) : BoxMaster × Option SlaveRecord :=
  if bm.burst = 3 then ({ bm with burst := 2 }, some .cc0014)
  else if bm.burst = 2 then ({ bm with burst := 1 }, some .ccHead)
  else ({ bm with burst := bm.burst - 1, burstJustEnded := true }, some .cc0013)

/-- The first record of an armed burst. -/
def bmBurstHead (bm : BoxMaster) (r : Option SlaveRecord) : BoxMaster × Option SlaveRecord :=
  if bm.burst = 3 then ({ bm with burst := 2 }, some .cc0014) else (bm, r)

/-- The grid slot when the burst is armed by the stagebox's channel map. -/
def bmChanmapSlot (bm : BoxMaster) : BoxMaster × Option SlaveRecord :=
  let (bm, r) : BoxMaster × Option SlaveRecord :=
    if !bm.announced then
      ({ bm with announceSent := true, announced := true, chanmapHit := false }, some .configBoxMaster)
    else if bm.chanmapHit then ({ bm with chanmapHit := false, burst := 3 }, none)
    else (bm, none)
  let (bm, r) := bmBurstHead bm r
  if 24 ≤ bm.seq + 1 then ({ bm with seq := 0, announced := false }, r)
  else ({ bm with seq := bm.seq + 1 }, r)

/-- The grid slot of the free-running order: the announce first, the burst two slots later. -/
def bmGridSlot (bm : BoxMaster) (now : UInt64) : BoxMaster × Option SlaveRecord :=
  if bm.seq = 0 ∧ bmSceneQuiet bm now then
    ({ bm with announceSent := true }, some .configBoxMaster)
  else if bm.seq = 2 then ({ bm with burst := 3 }, none)
  else (bm, none)

/-- After a burst the pair is retried only once the wait for the echo is over. -/
def bmAwait (bm : BoxMaster) (now : UInt64) : BoxMaster :=
  let bm := if bm.burst = 0 ∧ 3 ≤ bm.seq ∧ bm.burstSentNs = 0 then { bm with burstSentNs := now }
    else bm
  if bm.burstSentNs ≠ 0 then
    if 2000000000 ≤ now - bm.burstSentNs then { bm with burstSentNs := 0, seq := 0 } else bm
  else if 8 ≤ bm.seq + 1 then { bm with seq := 0 } else { bm with seq := bm.seq + 1 }

/-- A grid slot of the cold-connect towards a stagebox master. -/
def bmJoinSlot (cfg : SlaveCfg) (bm : BoxMaster) (now : UInt64) : BoxMaster × Option SlaveRecord :=
  let (bm, r) := if cfg.bmBurstChanmap then bmChanmapSlot bm else bmGridSlot bm now
  let (bm, r) := bmBurstHead bm r
  (bmAwait bm now, r)

/-- The control record a decision lays over the frame for a stagebox master. -/
def bmControl (cfg : SlaveCfg) (bm : BoxMaster) (d : SlaveDecision) (now : UInt64) :
    BoxMaster × Option SlaveRecord :=
  if d.emit = .coldconnect ∧ bm.burstJustEnded then
    ({ bm with burstJustEnded := false }, some .boxHb)
  else if d.emit = .coldconnect then
    if 0 < bm.burst then bmBurstRecord bm
    else if d.withJoin then bmJoinSlot cfg bm now
    else (bm, none)
  else if d.emit = .heartbeat ∨ d.withHeartbeat then (bm, some .boxHb)
  else (bm, none)

/-- The frame towards a stagebox master: the mixer's carrier or the box's own, unicast if a control
record is laid over it. -/
def bmFrame (cfg : SlaveCfg) (s : Slave) (d : SlaveDecision) (r : Option SlaveRecord) :
    Option SlaveFrame :=
  let flooding := d.emit = .floodFiller
  let body : SlaveBody :=
    if !cfg.bmFrameBox then .downstream
    else if flooding then .floodFiller
    else if s.fsm.state = .established then .upstreamFiller else .floodFiller
  let stamp := r.filter fun r => cfg.builds (.record r)
  let broadcast := stamp.isNone && (!cfg.bmFrameBox || flooding)
  if cfg.builds body then some { counter := s.fsm.counter, broadcast, body, stamp } else none

/-- `emit_decision` on a wire a stagebox masters. -/
def emitBoxMaster (cfg : SlaveCfg) (s : Slave) (d : SlaveDecision) (now : UInt64) :
    Slave × Option SlaveFrame :=
  let (s, silent) := bmPresilent cfg s now
  if silent then (s, none)
  else
    let c := bmControl cfg s.bm d now
    ({ s with bm := c.1 }, bmFrame cfg s d c.2)

/-- `emit_decision`. -/
def emitDecision (cfg : SlaveCfg) (s : Slave) (d : SlaveDecision) (now : UInt64) :
    Slave × Option SlaveFrame :=
  if cfg.boxMaster ∧ d.emit ≠ .none then emitBoxMaster cfg s d now else emitDesk cfg s d

/-! ## The loop -/

/-- What one pass of the loop finds: a requested link state, a timeout or a frame. -/
inductive SlaveEvent where
  | phy (want : Bool)
  | idle
  | frame (bytes : List UInt8)

/-- An event with the monotonic clock at it and whether the send, if there is one, succeeds. -/
structure SlaveInput where
  ev : SlaveEvent
  now : UInt64 := 0
  sendOk : Bool := true

/-- The frame a decision puts on the wire. -/
def slaveEmit (cfg : SlaveCfg) (s : Slave) (d : SlaveDecision) (i : SlaveInput) :
    Slave × Option SlaveFrame :=
  let (s, f) := emitDecision cfg s d i.now
  (s, if i.sendOk then f else none)

/-- What a stagebox master tells before the step: its announcement makes the flood pointless. -/
def bmHears (cfg : SlaveCfg) (s : Slave) (p : CtrlParsed) (now : UInt64) : Slave :=
  let s := if cfg.bmBurstChanmap ∧ p.kind = .masterHb then { s with bm := { s.bm with chanmapHit := true } }
    else s
  if !cfg.boxMaster then s
  else
    let s := if p.kind = .masterAnnounce ∧ !s.bm.sawCfea then
        { s with
          bm := { s.bm with sawCfea := true }
          fsm := if s.fsm.state = .floodAnnounce then { s.fsm with floodFrames := floodBurst }
            else s.fsm }
      else s
    if p.kind = .sceneTransfer then { s with bm := { s.bm with lastSceneNs := now } } else s

/-- The counter lock: our counter follows the master's at the offset latched first. -/
def counterLock (s : Slave) (p : CtrlParsed) : Slave :=
  if s.fsm.haveMaster ∧ p.src = s.fsm.masterMac then
    let offset := if s.counterLocked then s.counterOffset else s.fsm.counter - p.counter
    { s with
      counterOffset := offset, counterLocked := true
      fsm := { s.fsm with counter := p.counter + offset } }
  else s

/-- A received frame: one step, unless it is not ours to hear or our own echo. -/
def slaveRx (cfg : SlaveCfg) (s : Slave) (bytes : List UInt8) (i : SlaveInput) :
    Slave × Option SlaveFrame :=
  if !frameIsReac bytes then (s, none)
  else
    let p := ctrlParse bytes
    let s := if p.kind = .headamp ∧ headampRecordVerify bytes then slaveHeadampRx cfg s p else s
    if p.src = cfg.src then (s, none)
    else
      let (s, d) := slaveStep (bmHears cfg s p i.now) (.rx p)
      slaveEmit cfg (counterLock s p) d i

/-- One pass of `slave_loop`. -/
def slaveLoop (cfg : SlaveCfg) (s : Slave) (i : SlaveInput) : Slave × Option SlaveFrame :=
  match i.ev with
  | .phy want =>
    if want = s.phyUpSeen then (s, none)
    else
      let (s, d) := slaveStep s (if want then .phyUp else .phyDown)
      let s := { s with phyUpSeen := want }
      -- Only a link that comes up emits here, and it latches the offset afresh.
      if want then slaveEmit cfg { s with counterLocked := false } d i else (s, none)
  | .idle =>
    let (s, d) := slaveStep s .tick
    slaveEmit cfg s d i
  | .frame bytes => slaveRx cfg s bytes i

/-- The slave engine as a machine over the passes of its loop. -/
def slaveMachine (cfg : SlaveCfg) : Machine Slave SlaveInput (Option SlaveFrame) := ⟨slaveLoop cfg⟩

@[simp] theorem slaveMachine_step (cfg : SlaveCfg) (s : Slave) (i : SlaveInput) :
    (slaveMachine cfg).step s i = slaveLoop cfg s i := rfl

end Libreac
