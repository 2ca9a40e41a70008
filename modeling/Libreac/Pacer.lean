import Libreac.Identity
import Libreac.Machine
import Libreac.Master

/-!
# The pacer

`reac_pacer.c`: the thread that owns the master. `rxIngest` takes a frame off the wire,
`pacerSlot` decides what one downstream slot carries, and the requests of the other threads
(`requestRate`, `requestReestablish`, `headampSet`) wait for the next slot. The passive discovery of
`reac_pacer_rx_ingest`, the event log and the counters feed nothing back and are left out.
-/

namespace Libreac

open Reactive (Machine)

/-- What is set once for the process: the tunables of `reac_tunables.h` and the scene body the
placeholder of `reac_scene_body.c` holds. -/
structure Env where
  tunables : MasterTunables
  noHeadamp : Bool
  placeholder : SceneBody

/-- The part of `struct reac_pacer_cfg` that reaches the master. -/
structure PacerCfg where
  srcMac : Mac
  fps : ℤ
  console : ConsoleCfg
  headamps : List (ℕ × ℕ × UInt8) := []
  /-- The slot cadence is one of 3675, 4000 and 8000; what matters here is its sign, and that an hour
  of slots is an `int`. -/
  fps_pos : 0 < fps
  fps_le : fps ≤ 596522

/-- The rates of the closed list of `reac_cfg.h`. -/
inductive Rate where
  | r44100 | r48000 | r96000
  deriving DecidableEq, Repr

/-- The rate in Hz. -/
def Rate.hz : Rate → ℤ
  | .r44100 => 44100
  | .r48000 => 48000
  | .r96000 => 96000

/-- `REAC_SAMPLES_PER_PKT`. -/
def samplesPerPkt : ℤ := 12

/-- `REAC_HEADAMP_RESWEEP_SECONDS`: the re-assert is shipped off. -/
def headampResweepSeconds : UInt32 := 0

/-- `REAC_HEADAMP_CMD_RING`. -/
def headampCmdRing : ℕ := 128

/-- `struct reac_pacer`, without the frame ring, the clock discipline and the diagnostics. -/
structure Pacer where
  src : Mac
  fps : ℤ
  periodNs : ℤ
  master : Master
  headamp : HeadampTx := {}
  /-- The commands waiting in `ha_cmd`. -/
  headampCmds : List (ℕ × ℕ × UInt8) := []
  prevState : MasterState := .idle
  declaredIn : ℕ := 0
  declaredOut : ℕ := 0
  recognizedBox : Option ℕ := none
  recognizedHeadampBase : ℤ := -1
  recognizedBoxMac : Mac := noMac
  rxIdentity : Identity := {}
  rxIdentityFrag : IdentityFrag := {}
  rateHz : ℤ
  rateReqHz : ℤ := 0
  rateReqSeq : UInt32 := 0
  rateReqSeen : UInt32 := 0

/-- A call of `on_session`: the box and its session number, or `none` when a session ended. -/
abbrev SessionReport := Option (Mac × UInt32)

/-! ## Opening -/

/-- `reac_pacer_period_ns`: 10^9 / fps, rounded to the nearest nanosecond. -/
def pacerPeriodNs (fps : ℤ) : ℤ :=
  let fps := if fps ≤ 0 then 8000 else fps
  (2 * 1000000000 + fps) / (2 * fps)

/-- The configuration `reac_pacer_open` starts the master with: the pace code follows the rate. -/
def PacerCfg.consoleCfg (cfg : PacerCfg) : ConsoleCfg :=
  { (if cfg.console.outChannels ≠ 0 then cfg.console else consoleCfgIdle) with
    consoleField := paceCode cfg.fps }

/-- The head-amp table at open: the caller's settings, a bad one skipped. -/
def headampOpen (fps : ℤ) (headamps : List (ℕ × ℕ × UInt8)) : HeadampTx :=
  headampTxSetResweep
    (headamps.foldl (fun t c => (headampTxSet t c.1 c.2.1 c.2.2).getD t) headampTxInit)
    (UInt32.ofInt fps * headampResweepSeconds)

/-- `reac_pacer_open`, as far as the master is concerned. -/
def pacerOpen (env : Env) (cfg : PacerCfg) : Pacer :=
  let headamp := headampOpen cfg.fps cfg.headamps
  let master := masterInit env.tunables env.placeholder cfg.srcMac (some cfg.consoleCfg) cfg.fps
  { src := cfg.srcMac, fps := cfg.fps, periodNs := pacerPeriodNs cfg.fps
    master := masterSetHeadampSrc headamp master true
    headamp, rateHz := cfg.fps * samplesPerPkt }

/-! ## Transitions and the published box -/

/-- The report `note_transition` makes. -/
def sessionReport (m : Master) (src dst : MasterState) : List SessionReport :=
  if dst = .established then [some (m.boxMac, m.sessionSeq)]
  else if src = .established then [none]
  else []

/-- `note_transition`: every entry into ESTABLISHED replays the head-amp scene. -/
def noteTransition (env : Env) (p : Pacer) (src dst : MasterState) : Pacer × List SessionReport :=
  let p := { p with prevState := dst }
  let r := sessionReport p.master src dst
  if dst = .established ∧ src ≠ .established ∧ env.noHeadamp = false then
    ({ p with headamp := headampTxArmScene p.headamp p.master.alloc.base p.master.alloc.width }, r)
  else (p, r)

/-- `sync_published_box`: what is published mirrors what the master holds. -/
def syncPublishedBox (p : Pacer) : Pacer :=
  let p := { p with recognizedBoxMac := p.master.boxMac }
  if p.master.hasBox then { p with recognizedHeadampBase := p.master.alloc.base }
  else
    let heard :=
      p.rxIdentity.hasFw || p.rxIdentity.hasModelName || p.rxIdentity.hasReacVersion
    { p with
      recognizedBox := none, recognizedHeadampBase := -1, declaredIn := 0, declaredOut := 0
      rxIdentity := if heard then {} else p.rxIdentity
      rxIdentityFrag := {}
      master := masterIdentityAnswered p.master false }

/-! ## The receive path -/

/-- Fold one identity record into the accumulator and tell the master. -/
def identityFold (p : Pacer) (addrLo : UInt16) (payload : List UInt8) : Pacer :=
  let id := identityIngest p.rxIdentity addrLo payload
  { p with
    rxIdentity := id
    master := masterIdentityAnswered p.master (id.hasFw && id.hasReacVersion) }

/-- Whether the identity page of this frame is taken: once a box has declared itself, only its own. -/
def Pacer.fromOurs (p : Pacer) (frame : List UInt8) : Bool :=
  !p.master.hasBox || macAt frame 6 == p.master.boxMac || p.master.boxMac == noMac

/-- The identity pass of `reac_pacer_rx_ingest`. -/
def rxIdentityPass (p : Pacer) (frame : List UInt8) : Pacer :=
  if !p.fromOurs frame then p
  else
    match identityReply frame with
    | some (addrLo, payload) => identityFold p addrLo payload
    | none =>
      match identityFragment p.rxIdentityFrag frame with
      | (f, some (addrLo, payload)) =>
        identityFold { p with rxIdentityFrag := f } addrLo payload
      | (f, none) => { p with rxIdentityFrag := f }

/-- What a declaration does to the master: `reac_master_set_box`, and a fresh grant window when the
width is not the one already granted. -/
def declareBox (tx : HeadampTx) (m : Master) (ports : BoxPorts) : Master :=
  let m' := masterSetBox tx m ports.inCh ports.outCh ports.headampBase
  if m'.alloc.width = ports.inCh ∧ ports.inCh ≠ m.alloc.width ∧
      (m'.state = .granting ∨ m'.state = .established) then masterRegrant tx m'
  else m'

/-- The geometry pass of `reac_pacer_rx_ingest`. A declaration is recorded only once it holds, so
that the box's next announce retries. -/
def rxDeclare (p : Pacer) (frame : List UInt8) : Pacer :=
  match (if 50 ≤ frame.length then portsParse frame else none) with
  | none => p
  | some ports =>
    let p := { p with recognizedBox := (boxCatalogueMatch frame).or p.recognizedBox }
    if ports.inCh ≠ p.declaredIn ∨ ports.outCh ≠ p.declaredOut then
      let m := declareBox p.headamp p.master ports
      if m.alloc.width = ports.inCh then
        { p with master := m, declaredIn := ports.inCh, declaredOut := ports.outCh }
      else { p with master := m }
    else p

/-- `reac_pacer_rx_ingest`. -/
def rxIngest (env : Env) (p : Pacer) (frame : List UInt8) : Pacer × List SessionReport :=
  let frame := cleanFrame frame
  let p := rxIdentityPass p frame
  match classifyBoxFrame frame p.src with
  | none => (p, [])
  | some (parsed, ev) =>
    if !p.master.peerAccepts parsed.src ev then (p, [])
    else
      let p := rxDeclare p frame
      let src := p.master.state
      let blk := if ev = .join then some (blockOf frame) else none
      let (m, changed) := masterRx p.headamp p.master ev parsed.src blk
      let p := syncPublishedBox { p with master := m }
      if changed then noteTransition env p src p.master.state else (p, [])

/-! ## Requests -/

/-- `reac_pacer_request_rate`. -/
def requestRate (p : Pacer) (r : Rate) : Pacer :=
  { p with rateReqHz := r.hz, rateReqSeq := p.rateReqSeq + 1 }

/-- `reac_pacer_request_reestablish`: the standing rate, not a new one. -/
def requestReestablish (p : Pacer) : Pacer :=
  { p with rateReqHz := p.rateHz, rateReqSeq := p.rateReqSeq + 1 }

/-- `reac_pacer_headamp_set`: a full ring drops the command. -/
def headampSet (p : Pacer) (ch param : ℕ) (value : UInt8) : Pacer :=
  if headampCmdRing ≤ p.headampCmds.length then p
  else { p with headampCmds := p.headampCmds ++ [(ch, param, value)] }

/-- `reac_pacer_headamp_drain`: a bad triple is skipped. -/
def headampDrain (p : Pacer) : Pacer :=
  { p with
    headamp := p.headampCmds.foldl (fun t c => (headampTxSet t c.1 c.2.1 c.2.2).getD t) p.headamp
    headampCmds := [] }

/-- `reac_pacer_apply_rate`: the new cadence, and the master re-initialised at it. -/
def applyRate (env : Env) (p : Pacer) (hz : ℤ) : Pacer × List SessionReport :=
  let fps := hz.tdiv samplesPerPkt
  let saved : ConsoleCfg := { p.master.cfg with consoleField := paceCode fps }
  let cfg := if saved.outChannels ≠ 0 then some saved else none
  let master := masterInit env.tunables env.placeholder p.src cfg fps
  let reports := if p.master.state = .established then [none] else []
  ({ p with
      fps, periodNs := pacerPeriodNs fps
      master := masterSetHeadampSrc p.headamp master true
      headamp := headampTxSetResweep p.headamp (UInt32.ofInt fps * headampResweepSeconds)
      prevState := .idle
      recognizedBox := none, recognizedHeadampBase := -1, recognizedBoxMac := noMac
      declaredIn := 0, declaredOut := 0, rateHz := hz }, reports)

/-- A request is waiting. -/
def Pacer.rateReqPending (p : Pacer) : Bool := p.rateReqSeq != p.rateReqSeen

/-- `reac_pacer_rate_drain`. -/
def rateDrain (env : Env) (p : Pacer) : Pacer × List SessionReport :=
  if p.rateReqPending then applyRate env { p with rateReqSeen := p.rateReqSeq } p.rateReqHz
  else (p, [])

/-! ## The slot -/

/-- What a slot puts on the wire. -/
structure Sent where
  counter : UInt16
  slot : Slot
  /-- The `[type | block]` bytes stamped over the audio frame, if any were. -/
  ctrl : Option Template

/-- The head-amp overlay: only ever over a FILLER slot, and only once ESTABLISHED. -/
def headampOverlay (p : Pacer) (emit : MasterEmit) (ctrl : Option Template) :
    Pacer × Option Template :=
  if emit = .filler ∧ p.master.state = .established ∧
      (p.headamp.active ∨ p.headamp.replayWidth ≠ 0) then
    match headampTxNext p.headamp with
    | (t, some (ch, param, value)) => ({ p with headamp := t }, (stampHeadamp ch param value).or ctrl)
    | (t, none) => ({ p with headamp := t }, ctrl)
  else (p, ctrl)

/-- A slot of `pacer_loop` after the rate drain: the master's step, the stamp, the head-amp overlay
and the transition it may have made. -/
def masterSlot (env : Env) (p : Pacer) : Pacer × List SessionReport × Sent :=
  let counter := p.master.counter
  let (m, s) := masterNext env.tunables p.headamp p.master
  let (p, ctrl) := headampOverlay (headampDrain { p with master := m }) s.emit (masterStamp m s)
  let sent := { counter, slot := s, ctrl }
  if p.master.state ≠ p.prevState then
    let (p, r) := noteTransition env p p.prevState p.master.state
    (syncPublishedBox p, r, sent)
  else (p, [], sent)

/-- The slot of `pacer_loop`. -/
def pacerSlot (env : Env) (p : Pacer) : Pacer × List SessionReport × Sent :=
  let (p, r₁) := rateDrain env p
  let (p, r₂, sent) := masterSlot env p
  (p, r₁ ++ r₂, sent)

/-! ## The pacer as a machine -/

/-- What can happen to a pacer. -/
inductive PacerInput where
  | frame (bytes : List UInt8)
  | slot
  | requestRate (r : Rate)
  | requestReestablish
  | headampSet (ch param : ℕ) (value : UInt8)

/-- What a step of the pacer shows: the sessions it reports and the slot it sends. -/
structure PacerOut where
  reports : List SessionReport := []
  sent : Option Sent := none

/-- One step of the pacer. -/
def pacerStep (env : Env) (p : Pacer) : PacerInput → Pacer × PacerOut
  | .frame bytes =>
    let (p, r) := rxIngest env p bytes
    (p, { reports := r })
  | .slot =>
    let (p, r, sent) := pacerSlot env p
    (p, { reports := r, sent := some sent })
  | .requestRate r => (requestRate p r, {})
  | .requestReestablish => (requestReestablish p, {})
  | .headampSet ch param value => (headampSet p ch param value, {})

/-- The pacer. -/
def pacerMachine (env : Env) : Machine Pacer PacerInput PacerOut := ⟨pacerStep env⟩

end Libreac
