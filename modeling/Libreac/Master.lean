import Libreac.Carriers
import Libreac.Grant
import Libreac.Machine
import Libreac.MasterFsm

/-!
# The master

`reac_master.c`: the establishment state machine and the control cadence. `masterRx` takes one
classified frame of the box, `masterNext` decides what the next downstream frame carries; the other
operations are the doors the pacer uses (`masterSetBox`, `masterRegrant`, `masterSetHeadampSrc`).

The struct of the source is cut into the parts that change together: the constants of
`reac_master_init` (`Geometry`), the cursors of the cadence (`Cadence`) and the grant window
(`Window`). What is computed from the frame rate or added to a dwell wraps as an `int` does
(`wrapInt`); a counter that moves by one a slot is unbounded here. Where a division may see a negative
number it truncates towards zero, as in C.
-/

namespace Libreac

open Reactive (Event Machine)

/-- `enum reac_master_emit`. -/
inductive MasterEmit where
  | filler | sceneChunk | sceneHead | sceneTail | grant | enroll | chanmap | announce
  | identityPoll
  deriving DecidableEq, Repr

/-- The emissions that carry a step of the scene push. -/
def MasterEmit.isScene (e : MasterEmit) : Bool := e = .sceneHead ∨ e = .sceneChunk ∨ e = .sceneTail

/-- `struct reac_master_tunables`. -/
structure MasterTunables where
  grantOnDeclare : Bool := true
  grantDwellMs : ℤ := 0
  grantDwellS : ℤ := 0
  noEnroll : Bool := false
  estScene : Bool := false

/-- What `reac_master_init` scales by the frame rate, once. -/
structure Geometry where
  fps : ℤ
  cycleLen : ℤ
  probeStride : ℤ
  burstEnd : ℤ
  sub02Off : ℤ
  chanmapOff : ℤ
  sub01Off : ℤ
  grantStride : ℤ
  grantDwell : ℤ
  linkCheckReload : ℤ
  deriving DecidableEq

/-- The cursors of the control cadence and of the identity re-poll. -/
structure Cadence where
  cyclePos : ℤ := 0
  sceneStep : ℕ := 0
  announceTick : ℤ := 0
  chanmapCursor : ℕ := 0
  estChanmapTick : ℤ := 0
  identityPolls : ℤ := 0
  identityPollLeft : ℤ := 0
  identityPollSlot : ℤ := 0
  deriving DecidableEq

/-- The grant window. -/
structure Window where
  grantTicks : ℤ := 0
  enrollSentTick : ℤ := 0
  dwellEndedTick : ℤ := 0
  enrollPending : Bool := false
  deriving DecidableEq

/-- `struct reac_master`. -/
structure Master where
  state : MasterState
  src : Mac
  counter : UInt16 := 0
  geo : Geometry
  cfg : ConsoleCfg
  chanmap : List Template
  cad : Cadence := {}
  scene : SceneBody
  sceneBlk : Template
  fillerDesc : UInt8
  commitSeen : Bool := false
  sceneInflight : Bool := false
  sceneComplete : ℕ := 0
  joinHeld : Bool := false
  joinEv : RxEvent := .bcastFiller
  joinSrc : Mac := noMac
  joinHoldBlk : Option Block := none
  win : Window := {}
  alloc : GrantAlloc := .none
  /-- The first `grant_burst_len` rows of `grant_burst`. -/
  grantBurst : List Template := []
  /-- Whether `headamp_src` points at the table. -/
  headampSrc : Bool := false
  joinBlk : Block := Vector.replicate 32 0
  boxMac : Mac := noMac
  sessionSeq : UInt32 := 0
  grantAttempts : ℕ := 0
  linkCheck : ℤ := 0
  boxSeen : Bool := false
  presenceTick : ℤ := 0
  dropReason : DropReason := .none
  announceBlk : Template
  enrollBlk : Template
  identityComplete : Bool := false

/-! ## The scene burst -/

/-- `burst_slot`: the slot of the cycle that burst chunk `k` goes out on. -/
def burstSlot (fps k : ℤ) : ℤ := max k ((k * fps + 250) / 500)

/-- `burst_index_at`: the chunk the slot `pos` carries, if any. -/
def burstIndexAt (g : Geometry) (pos : ℤ) : Option ℤ :=
  if pos < 0 ∨ g.burstEnd < pos ∨ g.fps ≤ 0 then none
  else
    let k := min pos ((pos * 500 + g.fps / 2) / g.fps)
    [k - 1, k, k + 1].find? fun c => 0 ≤ c ∧ c < sceneChunks ∧ burstSlot g.fps c = pos

/-! ## Initialisation -/

/-- `grant_dwell_override_ms` and `grant_dwell_override_s`, applied to the built-in 1.6 s dwell. The
milliseconds are multiplied out in a `long long`, the seconds in an `int`, whose product no clamp
follows. -/
def grantDwellSlots (t : MasterTunables) (fps : ℤ) : ℤ :=
  if 0 < t.grantDwellMs ∧ t.grantDwellMs < 600000 then
    max 1 (wrapInt (fps * t.grantDwellMs / 1000))
  else if 0 < t.grantDwellS ∧ t.grantDwellS ≤ 3600 then wrapInt (fps * t.grantDwellS)
  else max 1 ((wrapInt (fps * 16)).tdiv 10)

/-- The slot geometry `reac_master_init` derives from a positive frame rate. -/
def geometry (t : MasterTunables) (fps : ℤ) : Geometry :=
  let cycleLen := wrapInt (fps * 10778 / 4000)
  let probeStride := max 1 ((wrapInt (fps + 250)).tdiv 500)
  let burstEnd := burstSlot fps (sceneChunks - 1)
  { fps, cycleLen, probeStride, burstEnd
    sub02Off := burstEnd + probeStride
    chanmapOff := wrapInt (fps * 5953 / 4000)
    sub01Off := wrapInt (cycleLen - 5)
    grantStride := 12
    grantDwell := grantDwellSlots t fps
    linkCheckReload := max 1 ((wrapInt (fps * 65)).tdiv 10) }

/-- The ENROLL block of a master that advertises `cfg`, for `inCh` inputs. -/
def enrollBlkOf (cfg : ConsoleCfg) (inCh : ℤ) : Template :=
  setEnrollWidth (enrollTmpl.set 8 cfg.consoleField) inCh

/-- `scene_prepare`: build the step the cadence selected and publish its checksum as the filler
descriptor. A step that cannot be built leaves the previous block. -/
def scenePrepare (m : Master) : Master :=
  match buildSceneStep m.scene m.cad.sceneStep with
  | none => m
  | some blk => { m with sceneBlk := blk, fillerDesc := blk.byte 33 }

/-- `reac_master_init`; `none` is a `NULL` configuration. -/
def masterInit (t : MasterTunables) (placeholder : SceneBody) (src : Mac)
    (cfg : Option ConsoleCfg) (fps : ℤ) : Master :=
  let fps := if 0 < fps then fps else 8000
  let cfg := cfg.getD consoleCfgIdle
  scenePrepare
    { state := .idle, src, geo := geometry t fps, cfg, chanmap := genChanmap cfg
      scene := sceneBody placeholder src cfg
      sceneBlk := Vector.replicate 34 0, fillerDesc := 0
      announceBlk := genCfea src cfg 0
      enrollBlk := enrollBlkOf cfg enrollDefaultWidth }

/-! ## The box -/

/-- `reac_master_has_box`. -/
def Master.hasBox (m : Master) : Bool := 0 < m.alloc.width

/-- `reac_master_peer_accepts`: once a box is latched, another source is refused; only a JOIN while
GRANTING still gets through. -/
def Master.peerAccepts (m : Master) (src : Mac) (ev : RxEvent) : Bool :=
  if m.state ≠ .granting ∧ m.state ≠ .established then true
  else if m.boxMac = noMac ∨ src = m.boxMac then true
  else ev = .join ∧ m.state = .granting

/-- `rebuild_grant_sweep`: allocate and regenerate the sweep, or change nothing. -/
def rebuildGrantSweep (tx : HeadampTx) (m : Master) (base inCh : ℤ) : Option Master :=
  match grantAllocate base inCh with
  | none => none
  | some a =>
    match grantBuildSweep a (if m.headampSrc then some tx else none) with
    | none => none
    | some rows => some { m with alloc := a, grantBurst := rows }

/-- `rebuild_grant_sweep` over the allocation in force, for the callers that ignore a failure. -/
def refreshGrantSweep (tx : HeadampTx) (m : Master) : Master :=
  (rebuildGrantSweep tx m m.alloc.base m.alloc.width).getD m

/-- `reac_master_forget_box`. -/
def masterForgetBox (m : Master) : Master :=
  let cfg := { m.cfg with outChannels := consoleCfgIdle.outChannels }
  { m with
    alloc := .none, grantBurst := []
    win := { m.win with enrollPending := false, enrollSentTick := 0 }
    boxMac := noMac
    enrollBlk := setEnrollWidth m.enrollBlk enrollDefaultWidth
    cfg, announceBlk := genCfea m.src cfg 0 }

/-- `reac_master_set_box`. A width that cannot be placed changes nothing. -/
def masterSetBox (tx : HeadampTx) (m : Master) (inCh _outCh headampBase : ℤ) : Master :=
  match rebuildGrantSweep tx m headampBase inCh with
  | none => m
  | some m' =>
    let cfg := { m.cfg with outChannels := UInt8.ofInt inCh }
    let m' := { m' with
      enrollBlk := setEnrollWidth m.enrollBlk inCh
      cfg, announceBlk := genCfea m.src cfg (if m.state = MasterState.established then 1 else 0) }
    -- A box that declares itself into a window held open for it restarts the window.
    if m.hasBox = false ∧ m.state = .granting then
      { m' with win := {}, cad := { m.cad with announceTick := 0 } }
    else { m' with win := { m.win with enrollPending := true } }

/-- `reac_master_set_headamp_src`; `present` is whether the pointer is non-`NULL`. -/
def masterSetHeadampSrc (tx : HeadampTx) (m : Master) (present : Bool) : Master :=
  refreshGrantSweep tx { m with headampSrc := present }

/-- `reac_master_identity_answered`. -/
def masterIdentityAnswered (m : Master) (complete : Bool) : Master :=
  { m with identityComplete := complete }

/-! ## The entry actions -/

/-- `reset_control_cadence`: the cycle restarts at the header slot. -/
def resetControlCadence (g : Geometry) (c : Cadence) : Cadence :=
  { c with
    cyclePos := g.sub01Off, announceTick := (wrapInt (3 * g.fps)).tdiv 4, chanmapCursor := 0
    estChanmapTick := g.fps / 4 }

/-- `enter_probing`. Every way in but the first slot forgets the box. -/
def enterProbing (m : Master) : Master :=
  let m' := { m with
    state := .probing, cad := resetControlCadence m.geo m.cad, sceneInflight := false
    sceneComplete := 0, joinHeld := false, commitSeen := false }
  if m.state ≠ .idle then masterForgetBox m'
  else { m' with announceBlk := genCfea m.src m.cfg 0 }

/-- `enter_granting`: open a grant window for `boxSrc`. -/
def enterGranting (tx : HeadampTx) (m : Master) (boxSrc : Mac) (blk : Option Block) : Master :=
  let m := refreshGrantSweep tx { m with
    state := .granting
    win := { m.win with grantTicks := 0, enrollSentTick := 0, dwellEndedTick := 0 }
    grantAttempts := m.grantAttempts + 1
    boxMac := boxSrc, joinBlk := blk.getD m.joinBlk }
  let cfg := if m.hasBox then { m.cfg with outChannels := m.alloc.width.toUInt8 } else m.cfg
  { m with cfg, announceBlk := genCfea m.src cfg 0 }

/-- `reac_master_regrant`. -/
def masterRegrant (tx : HeadampTx) (m : Master) : Master := enterGranting tx m m.boxMac none

/-- `enter_established`. -/
def enterEstablished (m : Master) : Master :=
  { m with
    state := .established, sessionSeq := m.sessionSeq + 1
    cad := resetControlCadence m.geo { m.cad with identityPolls := 0, identityPollLeft := 0 }
    linkCheck := m.geo.linkCheckReload, announceBlk := genCfea m.src m.cfg 1 }

/-- `apply_edge`. The callers that pass `NULL` for the source never enter GRANTING; they pass
`noMac` here. -/
def applyEdge (tx : HeadampTx) (m : Master) (e : MasterEdge) (boxSrc : Mac) (blk : Option Block) :
    Master :=
  let m := if e.drop = .none then m else { m with dropReason := e.drop }
  if !e.enter then m
  else
    match e.next with
    | .probing => enterProbing m
    | .granting => enterGranting tx m boxSrc blk
    | .established => enterEstablished m
    | .idle => m

/-- The promotion out of IDLE, made by the first slot or the first frame. -/
def promoteIdle (tx : HeadampTx) (m : Master) : Master :=
  if m.state = .idle then applyEdge tx m (fsmStep m.state .start) noMac none else m

/-! ## The grant window -/

/-- `reac_master_grant_anchor`: where the burst's timeline starts. -/
def Master.grantAnchor (m : Master) : ℤ :=
  if 0 < m.win.dwellEndedTick then m.win.dwellEndedTick else m.geo.grantDwell

/-- `grant_delivered`. With no box there is no sweep, so the answer is no. -/
def Master.grantDelivered (m : Master) : Bool :=
  m.hasBox ∧
    wrapInt (m.grantAnchor + m.grantBurst.length * m.geo.grantStride + 1) ≤ m.win.grantTicks

/-- `declare_settle_slots`: 50 ms. -/
def Geometry.declareSettleSlots (g : Geometry) : ℤ := max 1 (g.fps / 20)

/-- The dwell ends now because the box has declared itself and been armed. -/
def Master.declaredAndArmed (t : MasterTunables) (m : Master) : Bool :=
  t.grantOnDeclare ∧ m.win.enrollPending = false ∧ 0 < m.win.enrollSentTick ∧
    wrapInt (m.win.enrollSentTick + m.geo.declareSettleSlots) ≤ m.win.grantTicks

/-- `dwell_ends_now`, with the latch of `dwell_ended_tick`. -/
def dwellEndsNow (t : MasterTunables) (m : Master) : Window × Bool :=
  if 0 < m.win.dwellEndedTick then (m.win, true)
  else if m.declaredAndArmed t then ({ m.win with dwellEndedTick := m.win.grantTicks }, true)
  else (m.win, false)

/-- What one slot carries: the emission and its template index. -/
structure Slot where
  emit : MasterEmit
  idx : ℤ
  deriving DecidableEq, Repr

/-- A slot without a template index. -/
def Slot.plain (emit : MasterEmit) : Slot := ⟨emit, 0⟩

/-- `granting_chanmap_due`: the map never stops. -/
def grantingChanmapDue (g : Geometry) (c : Cadence) : Cadence × Option ℕ :=
  if c.estChanmapTick + 1 < g.fps then ({ c with estChanmapTick := c.estChanmapTick + 1 }, none)
  else
    ({ c with estChanmapTick := 0, chanmapCursor := (c.chanmapCursor + 1) % chanmapRing },
      some c.chanmapCursor)

/-- A slot of the dwell that carries no ENROLL: the map when it is due, else the 1/s announce. -/
def dwellSlot (g : Geometry) (c : Cadence) : Cadence × Slot :=
  match grantingChanmapDue g c with
  | (c, some i) => (c, ⟨.chanmap, i⟩)
  | (c, none) =>
    if g.fps ≤ c.announceTick + 1 then ({ c with announceTick := 0 }, .plain .announce)
    else ({ c with announceTick := c.announceTick + 1 }, .plain .filler)

/-- The burst row this slot carries, if it is a grant slot. -/
def Master.grantSlot (m : Master) : Option ℤ :=
  let gt := m.win.grantTicks - 1 - m.grantAnchor
  if gt.tmod m.geo.grantStride = 0 ∧ gt.tdiv m.geo.grantStride < m.grantBurst.length then
    some (gt.tdiv m.geo.grantStride)
  else none

/-- A slot of the burst: a grant slot is never displaced. -/
def burstWindowSlot (m : Master) : Cadence × Slot :=
  match m.grantSlot with
  | some k => (m.cad, ⟨.grant, k⟩)
  | none =>
    match grantingChanmapDue m.geo m.cad with
    | (c, some i) => (c, ⟨.chanmap, i⟩)
    | (c, none) => (c, .plain .filler)

/-- The ENROLL to a box of known width, which `no_enroll` suppresses. -/
def enrollSlot (t : MasterTunables) : Slot := .plain (if t.noEnroll then .filler else .enroll)

/-- What a GRANTING slot emits while a box is known: ENROLL, the dwell, then the burst. -/
def declaredSlot (t : MasterTunables) (m : Master) : Cadence × Window × Slot :=
  if m.win.grantTicks = 0 then (m.cad, m.win, enrollSlot t)
  else if m.win.grantTicks ≤ m.geo.grantDwell then
    match dwellEndsNow t m with
    | (w, true) =>
      let (c, s) := burstWindowSlot { m with win := w }
      (c, w, s)
    | (w, false) =>
      if w.enrollPending then
        (m.cad, { w with enrollPending := false, enrollSentTick := w.grantTicks }, enrollSlot t)
      else
        let (c, s) := dwellSlot m.geo m.cad
        (c, w, s)
  else
    let (c, s) := burstWindowSlot m
    (c, m.win, s)

/-- What a GRANTING slot emits while no box has declared itself: hold the window. -/
def undeclaredSlot (m : Master) : Cadence × Slot :=
  if m.win.grantTicks = 0 then (m.cad, .plain .enroll) else dwellSlot m.geo m.cad

/-- The GRANTING case of `reac_master_next`. -/
def slotGranting (t : MasterTunables) (tx : HeadampTx) (m : Master) : Master × Slot :=
  if m.hasBox then
    let (c, w, s) := declaredSlot t m
    let m := { m with cad := c, win := { w with grantTicks := w.grantTicks + 1 } }
    if m.grantDelivered then (applyEdge tx m (fsmStep m.state .grantDelivered) noMac none, s)
    else (m, s)
  else
    let (c, s) := undeclaredSlot m
    let m := { m with cad := c, win := { m.win with grantTicks := m.win.grantTicks + 1 } }
    if m.geo.grantDwell < m.win.grantTicks then
      (applyEdge tx m (fsmStep m.state .boxUnknown) noMac none, s)
    else (m, s)

/-! ## The control cadence -/

/-- The scene slot at position `pos` of the cycle, with its step. -/
def sceneSlot (g : Geometry) (pos : ℤ) : Option (ℕ × MasterEmit) :=
  match burstIndexAt g pos with
  | some k => some (1 + k.toNat, .sceneChunk)
  | none =>
    if pos = g.sub02Off then some (sceneSteps - 1, .sceneTail)
    else if pos = g.sub01Off then some (0, .sceneHead)
    else none

/-- The identity re-poll at the end of the locked cadence. -/
def identityPoll (g : Geometry) (complete : Bool) (c : Cadence) : Cadence × Slot :=
  if 0 < c.identityPollLeft then
    if g.grantStride ≤ c.identityPollSlot + 1 then
      ({ c with identityPollSlot := 0, identityPollLeft := c.identityPollLeft - 1 },
        ⟨.identityPoll, groupbLen - c.identityPollLeft⟩)
    else ({ c with identityPollSlot := c.identityPollSlot + 1 }, .plain .filler)
  else if complete = false ∧ c.identityPolls < 10 ∧ c.announceTick = g.fps / 4 then
    ({ c with
        identityPolls := c.identityPolls + 1, identityPollLeft := groupbLen
        identityPollSlot := 0 }, .plain .filler)
  else (c, .plain .filler)

/-- The locked cadence: announce and map once a second each, and the opt-in scene push. -/
def lockedCadence (t : MasterTunables) (g : Geometry) (complete : Bool) (pos : ℤ) (c : Cadence) :
    Cadence × Slot :=
  let c := { c with estChanmapTick := c.estChanmapTick + 1 }
  if g.fps ≤ c.announceTick then ({ c with announceTick := 0 }, .plain .announce)
  else if g.fps ≤ c.estChanmapTick then
    ({ c with estChanmapTick := 0, chanmapCursor := (c.chanmapCursor + 1) % chanmapRing },
      ⟨.chanmap, c.chanmapCursor⟩)
  else
    match if t.estScene then sceneSlot g pos else none with
    | some (step, emit) => ({ c with sceneStep := step }, .plain emit)
    | none => identityPoll g complete c

/-- The hunt cadence: the scene burst, the map and the announce. The map slot lies between the final
chunk and the header, and is looked at between them. -/
def huntCadence (g : Geometry) (pos : ℤ) (c : Cadence) : Cadence × Slot :=
  match burstIndexAt g pos with
  | some k => ({ c with sceneStep := 1 + k.toNat }, .plain .sceneChunk)
  | none =>
    if pos = g.sub02Off then ({ c with sceneStep := sceneSteps - 1 }, .plain .sceneTail)
    else if pos = g.chanmapOff then
      ({ c with chanmapCursor := (c.chanmapCursor + 1) % chanmapRing }, ⟨.chanmap, c.chanmapCursor⟩)
    else if pos = g.sub01Off then ({ c with sceneStep := 0 }, .plain .sceneHead)
    else if g.fps ≤ c.announceTick then ({ c with announceTick := 0 }, .plain .announce)
    else (c, .plain .filler)

/-- `control_cadence`. -/
def controlCadence (t : MasterTunables) (m : Master) : Cadence × Slot :=
  let pos := m.cad.cyclePos
  let c := { m.cad with
    cyclePos := (pos + 1).tmod m.geo.cycleLen, announceTick := m.cad.announceTick + 1 }
  if m.state = .established then lockedCadence t m.geo m.identityComplete pos c
  else huntCadence m.geo pos c

/-- The PROBING case of `reac_master_next`: no timer leaves this state. -/
def slotProbing (t : MasterTunables) (m : Master) : Master × Slot :=
  let (c, s) := controlCadence t m
  ({ m with cad := c }, s)

/-- The ESTABLISHED case of `reac_master_next`: the link budget counts down. -/
def slotEstablished (t : MasterTunables) (tx : HeadampTx) (m : Master) : Master × Slot :=
  let (c, s) := controlCadence t m
  let m := { m with cad := c, linkCheck := m.linkCheck - 1 }
  if m.linkCheck ≤ 0 then (applyEdge tx m (fsmStep m.state .linkLost) noMac none, s) else (m, s)

/-! ## The two entry points -/

/-- `scene_transfer_ready`: the box holds a whole scene. -/
def Master.sceneTransferReady (m : Master) : Bool := 0 < m.sceneComplete ∧ m.sceneInflight = false

/-- `hold_join`: park a forward edge that arrived mid-transfer. -/
def holdJoin (m : Master) (ev : RxEvent) (boxSrc : Mac) (blk : Option Block) : Master :=
  { m with joinHeld := true, joinEv := ev, joinSrc := boxSrc, joinHoldBlk := blk }

/-- The decision event of a frame, with the guards read now. -/
def Master.classify (m : Master) (ev : RxEvent) (boxSrc : Mac) (blk : Option Block) : MasterEv :=
  fsmClassify ev blk.isSome (boxSrc = m.boxMac) m.grantDelivered

/-- The cold-connect block an edge latches: only a JOIN brings one. -/
def joinBlock (dev : MasterEv) (blk : Option Block) : Option Block :=
  if dev = .joinNew ∨ dev = .joinSame then blk else none

/-- `release_held_join`: the decision is derived afresh from the parked event. -/
def releaseHeldJoin (tx : HeadampTx) (m : Master) : Master :=
  let m := { m with joinHeld := false }
  let dev := m.classify m.joinEv m.joinSrc m.joinHoldBlk
  applyEdge tx m (fsmStep m.state dev) m.joinSrc (joinBlock dev m.joinHoldBlk)

/-- What `reac_master_rx` does to the counters before it decides. -/
def rxAccount (tx : HeadampTx) (m : Master) (ev : RxEvent) : Master :=
  let m := promoteIdle tx { m with boxSeen := true, presenceTick := 600 }
  let m := if ev = .config then { m with commitSeen := true } else m
  if m.state = .established then { m with linkCheck := m.geo.linkCheckReload } else m

/-- `reac_master_rx`. -/
def masterRx (tx : HeadampTx) (m : Master) (ev : RxEvent) (boxSrc : Mac) (blk : Option Block) :
    Master × Bool :=
  if !m.peerAccepts boxSrc ev then (m, false)
  else
    let m := rxAccount tx m ev
    let dev := m.classify ev boxSrc blk
    let e := fsmStep m.state dev
    let jblk := joinBlock dev blk
    -- A forward edge that lands before the box has the whole scene is held.
    if e.transitioned ∧ m.state = .probing ∧ e.next = .granting ∧ m.sceneTransferReady = false then
      (holdJoin m ev boxSrc jblk, false)
    else (applyEdge tx m e boxSrc jblk, e.transitioned)

/-- The transfer accounting at the end of `reac_master_next`. -/
def sceneAccount (tx : HeadampTx) (m : Master) (emit : MasterEmit) : Master :=
  if emit = .sceneHead then { m with sceneInflight := true }
  else if emit = .sceneTail ∧ m.sceneInflight then
    let m := { m with sceneInflight := false, sceneComplete := m.sceneComplete + 1 }
    if m.joinHeld then releaseHeldJoin tx m else m
  else m

/-- The presence diagnostic. -/
def presenceDecay (m : Master) : Master :=
  if m.boxSeen then
    { m with presenceTick := m.presenceTick - 1, boxSeen := decide (0 < m.presenceTick - 1) }
  else m

/-- The switch of `reac_master_next`. -/
def slotByState (t : MasterTunables) (tx : HeadampTx) (m : Master) : Master × Slot :=
  match m.state with
  | .idle | .probing => slotProbing t m
  | .granting => slotGranting t tx m
  | .established => slotEstablished t tx m

/-- `reac_master_next`. The frame counter it reports is `m.counter` before the call. -/
def masterNext (t : MasterTunables) (tx : HeadampTx) (m : Master) : Master × Slot :=
  let m := presenceDecay (promoteIdle tx { m with counter := m.counter + 1 })
  let (m, s) := slotByState t tx m
  let m := if s.emit.isScene then scenePrepare m else m
  (sceneAccount tx m s.emit, s)

/-! ## Stamping -/

/-- `stamp_filler_descriptor`, under the type word `00 00` of a filler frame. -/
def fillerBlock (desc : UInt8) : Template :=
  Vector.ofFn fun i => if i.1 < 2 ∨ i.1 % 2 = 0 then 0x00 else desc

/-- `reac_master_stamp`: the `[type | block]` bytes the frame leaves with; `none` is the source's
`-1`, which leaves the frame as it was. -/
def masterStamp (m : Master) (s : Slot) : Option Template :=
  match s.emit with
  | .filler => some (fillerBlock m.fillerDesc)
  | .sceneHead | .sceneChunk | .sceneTail => some (stampBlockCksum m.sceneBlk)
  | .grant => if s.idx < 0 then none else m.grantBurst[s.idx.toNat]?.map stampBlockCksum
  | .identityPoll =>
    if s.idx < 0 then none else (identityPollBlock s.idx.toNat).map stampBlockCksum
  | .enroll => some (stampBlockCksum m.enrollBlk)
  | .chanmap => if s.idx < 0 then none else m.chanmap[s.idx.toNat]?.map stampBlockCksum
  | .announce => some (stampBlockCksum m.announceBlk)

/-- `reac_master_stamp` on a frame buffer: the block goes to `[16:50]`, the filler descriptor to
`[18:50]`. -/
def masterStampFrame (m : Master) (s : Slot) (frame : List UInt8) : Option (List UInt8) :=
  (masterStamp m s).map fun t =>
    if s.emit = .filler then overwrite frame 18 (t.toList.drop 2) else overwrite frame 16 t.toList

/-! ## The master as a machine -/

/-- The calls the owner of a master makes. -/
inductive MasterInput where
  | rx (ev : RxEvent) (src : Mac) (blk : Option Block)
  | next
  | regrant
  | setHeadampSrc (present : Bool)
  | setBox (inCh outCh headampBase : ℤ)
  deriving DecidableEq

/-- One call; it comes with the head-amp table as it stands at that moment. -/
def masterStep (t : MasterTunables) (m : Master) (i : HeadampTx × MasterInput) :
    Master × Option Slot :=
  match i.2 with
  | .rx ev src blk => ((masterRx i.1 m ev src blk).1, none)
  | .next => ((masterNext t i.1 m).1, some (masterNext t i.1 m).2)
  | .regrant => (masterRegrant i.1 m, none)
  | .setHeadampSrc present => (masterSetHeadampSrc i.1 m present, none)
  | .setBox inCh outCh headampBase => (masterSetBox i.1 m inCh outCh headampBase, none)

/-- The master. -/
def masterMachine (t : MasterTunables) : Machine Master (HeadampTx × MasterInput) (Option Slot) :=
  ⟨masterStep t⟩

/-- A step of the master. -/
abbrev MasterEvent := Event Master (HeadampTx × MasterInput) (Option Slot)

/-- The calls of an owner that also relays the box's identity replies. -/
inductive OwnerInput where
  | call (i : MasterInput)
  | identityAnswered (complete : Bool)
  deriving DecidableEq

/-- One call of such an owner. -/
def ownerStep (t : MasterTunables) (m : Master) (i : HeadampTx × OwnerInput) : Master × Option Slot :=
  match i.2 with
  | .call call => masterStep t m (i.1, call)
  | .identityAnswered complete => (masterIdentityAnswered m complete, none)

/-- The master under such an owner. -/
def ownerMachine (t : MasterTunables) : Machine Master (HeadampTx × OwnerInput) (Option Slot) :=
  ⟨ownerStep t⟩

end Libreac
