import Libreac.Ctrl
import Libreac.Machine

/-!
# The virtual stagebox: JOIN and HOLD

The state machine of `reac_fsm.c`. A slave floods broadcast presence frames until it knows a master,
courts it by unicast, acknowledges its grant, goes quiet for a moment and then streams. A courtship
without a grant is bounded and followed by a silent pause.
-/

namespace Libreac

open Reactive

/-- `enum reac_fsm_state`. -/
inductive FsmState where
  | phyDown | floodAnnounce | coldconnect | txMute | established | drop | backoff
  deriving DecidableEq, Repr

/-- `enum reac_fsm_action`. -/
inductive FsmAction where
  | none | floodBcast | unicastColdconnect | silence | unicastAudio | stop
  deriving DecidableEq, Repr

/-- `enum reac_fsm_event`; a reception always comes with its parsed frame. -/
inductive FsmEvent where
  | phyUp
  | phyDown
  | rx (p : CtrlParsed)
  | tick

/-- `enum reac_fsm_drop_reason`. -/
inductive FsmDropReason where
  | none | explicit | peerGone | macChange
  deriving DecidableEq, Repr

/-- `REAC_FSM_LINKCHECK_RELOAD`. -/
def linkcheckReload : ℤ := 600

/-- `REAC_FSM_TXMUTE_DWELL`. -/
def txmuteDwellReload : ℤ := 800

/-- `REAC_FSM_FLOOD_BURST`. -/
def floodBurst : ℤ := 5460

/-- `REAC_FSM_JOIN_RETRY_PERIOD`. -/
def joinRetryPeriod : ℤ := 800

/-- `REAC_FSM_GRANT_ACK_FRAMES`: nine retry periods. -/
def grantAckFrames : ℤ := 7200

/-- `REAC_FSM_COLDCONNECT_BUDGET_S`. -/
def coldconnectBudgetS : ℤ := 4

/-- `REAC_FSM_BACKOFF_S`. -/
def backoffS : ℤ := 10

/-- `struct reac_fsm`. -/
structure ReacFsm where
  state : FsmState := .phyDown
  masterMac : Mac := noMac
  haveMaster : Bool := false
  linkCheck : ℤ := 0
  txmuteDwell : ℤ := 0
  heartbeatTick : ℤ := 0
  /-- Frames per second at the wire rate; 0 stands for the default. -/
  heartbeatPeriod : ℤ := 8000
  counter : UInt16 := 0
  floodFrames : ℤ := 0
  dropReason : FsmDropReason := .none
  emitHeartbeat : Bool := false
  emitJoin : Bool := false
  joinRetryCountdown : ℤ := 0
  /-- Frames left of the window in which the grant is acknowledged. -/
  grantAck : ℤ := 0
  coldconnectFrames : ℤ := 0
  backoff : ℤ := 0

/-- `struct reac_fsm_out`. -/
structure FsmOut where
  action : FsmAction
  state : FsmState
  emitHeartbeat : Bool
  emitJoin : Bool
  deriving DecidableEq, Repr

/-- `reac_fsm_init`. -/
def reacFsmInit : ReacFsm := {}

/-- `hb_period`, which is also `frames_per_s`. -/
def ReacFsm.framesPerS (fsm : ReacFsm) : ℤ :=
  if 0 < fsm.heartbeatPeriod then fsm.heartbeatPeriod else 8000

/-- The frames an ungranted courtship may take. -/
def ReacFsm.courtBudget (fsm : ReacFsm) : ℤ := wrapInt (coldconnectBudgetS * fsm.framesPerS)

/-- The steps of the pause after it. -/
def ReacFsm.backoffSteps (fsm : ReacFsm) : ℤ := wrapInt (backoffS * fsm.framesPerS)

/-- `is_master_frame`: the kinds only a console emits. -/
def isMasterFrame (kind : CtrlKind) : Bool :=
  kind = .masterHb ∨ kind = .masterAnnounce ∨ kind = .sceneTransfer ∨ kind = .grant ∨ kind = .headamp

/-- `learn_master`. -/
def learnMaster (fsm : ReacFsm) (rx : CtrlParsed) : ReacFsm :=
  { fsm with masterMac := rx.src, haveMaster := true }

/-- The reception of a frame while hunting or courting: master evidence names the master. -/
def heardMaster (fsm : ReacFsm) (rx : CtrlParsed) : ReacFsm :=
  if isMasterFrame rx.kind then learnMaster fsm rx else fsm

/-- `out`: the two emission flags are handed over and cleared. -/
def ReacFsm.out (fsm : ReacFsm) (a : FsmAction) : ReacFsm × FsmOut :=
  ({ fsm with emitHeartbeat := false, emitJoin := false },
    ⟨a, fsm.state, fsm.emitHeartbeat, fsm.emitJoin⟩)

/-- `arm_flood`. -/
def armFlood (fsm : ReacFsm) : ReacFsm :=
  { fsm with state := .floodAnnounce, floodFrames := 0, grantAck := 0 }

/-- `arm_coldconnect`. -/
def armColdconnect (fsm : ReacFsm) : ReacFsm :=
  { fsm with joinRetryCountdown := 0, coldconnectFrames := 0 }

/-- `flood_tick`: one broadcast frame. -/
def floodTick (fsm : ReacFsm) : ReacFsm × FsmOut :=
  let fsm := { fsm with
    counter := fsm.counter + 1
    floodFrames := if fsm.floodFrames < floodBurst then fsm.floodFrames + 1 else fsm.floodFrames }
  fsm.out .floodBcast

/-- `coldconnect_tick`: one unicast frame, on the retry grid with a cold-connect record. -/
def coldconnectTick (fsm : ReacFsm) : ReacFsm × FsmOut :=
  let left := fsm.joinRetryCountdown - 1
  let fsm := { fsm with
    counter := fsm.counter + 1, coldconnectFrames := fsm.coldconnectFrames + 1
    emitJoin := if left ≤ 0 then true else fsm.emitJoin
    joinRetryCountdown := if left ≤ 0 then joinRetryPeriod else left }
  fsm.out .unicastColdconnect

/-- One broadcast frame, and the handover once the burst is done and the master is known. -/
def floodOne (fsm : ReacFsm) : ReacFsm × FsmOut :=
  let (fsm, o) := floodTick fsm
  if floodBurst ≤ fsm.floodFrames ∧ fsm.haveMaster then
    (armColdconnect { fsm with state := .coldconnect }, o)
  else (fsm, o)

/-- `FSM_FLOOD_ANNOUNCE`: a grant that comes early ends the flood at once. -/
def stepFlood (fsm : ReacFsm) : FsmEvent → ReacFsm × FsmOut
  | .rx p =>
    let fsm := heardMaster fsm p
    if p.kind = .grant then coldconnectTick (armColdconnect { fsm with state := .coldconnect })
    else floodOne fsm
  | _ => floodOne fsm

/-- The reception of a frame while courting: the first grant opens the acknowledgement window. -/
def coldconnectHears (fsm : ReacFsm) : FsmEvent → ReacFsm
  | .rx p =>
    let fsm := heardMaster fsm p
    if p.kind = .grant ∧ fsm.grantAck = 0 then { fsm with grantAck := grantAckFrames } else fsm
  | _ => fsm

/-- `FSM_COLDCONNECT`, after the frame has been heard. -/
def courtOne (fsm : ReacFsm) : ReacFsm × FsmOut :=
  if !fsm.haveMaster then floodTick (armFlood fsm)
  -- The window is decremented only while it is open.
  else if 0 < fsm.grantAck ∧ fsm.grantAck - 1 = 0 then
    ({ fsm with
      grantAck := 0, state := .txMute, txmuteDwell := txmuteDwellReload
      linkCheck := linkcheckReload }).out .silence
  else
    let fsm := if 0 < fsm.grantAck then { fsm with grantAck := fsm.grantAck - 1 } else fsm
    if fsm.grantAck = 0 ∧ fsm.courtBudget ≤ fsm.coldconnectFrames then
      ({ fsm with state := .backoff, backoff := fsm.backoffSteps }).out .stop
    else coldconnectTick fsm

/-- `FSM_BACKOFF`: off the wire, whatever is heard. -/
def stepBackoff (fsm : ReacFsm) : ReacFsm × FsmOut :=
  let fsm := { fsm with backoff := fsm.backoff - 1 }
  if fsm.backoff ≤ 0 then floodTick (armFlood fsm) else fsm.out .stop

/-- One step of the mute dwell. -/
def muteOne (fsm : ReacFsm) : ReacFsm × FsmOut :=
  let fsm := { fsm with counter := fsm.counter + 1, txmuteDwell := fsm.txmuteDwell - 1 }
  if fsm.txmuteDwell ≤ 0 then
    ({ fsm with
      state := .established, linkCheck := linkcheckReload, heartbeatTick := 0 }).out .unicastAudio
  else fsm.out .silence

/-- `FSM_TX_MUTE`: a received frame advances the dwell exactly like a tick. -/
def stepTxMute (fsm : ReacFsm) : FsmEvent → ReacFsm × FsmOut
  | .tick | .rx _ => muteOne fsm
  | _ => fsm.out .silence

/-- One upstream audio frame, with the keep-alive once every period. -/
def audioOne (fsm : ReacFsm) : ReacFsm × FsmOut :=
  let ticks := fsm.heartbeatTick + 1
  let fsm := if fsm.framesPerS ≤ ticks then { fsm with heartbeatTick := 0, emitHeartbeat := true }
    else { fsm with heartbeatTick := ticks }
  fsm.out .unicastAudio

/-- A tick of `FSM_ESTABLISHED`: the peer-gone countdown runs here only. -/
def establishedTick (fsm : ReacFsm) : ReacFsm × FsmOut :=
  let fsm := { fsm with counter := fsm.counter + 1, linkCheck := fsm.linkCheck - 1 }
  if fsm.linkCheck ≤ 0 then ({ fsm with state := .drop, dropReason := .peerGone }).out .stop
  else audioOne fsm

/-- A reception in `FSM_ESTABLISHED`. The counter is not advanced here. -/
def establishedRx (fsm : ReacFsm) (p : CtrlParsed) : ReacFsm × FsmOut :=
  if fsm.haveMaster ∧ p.src ≠ fsm.masterMac ∧ isMasterFrame p.kind then
    ({ fsm with state := .drop, dropReason := .macChange }).out .stop
  else if p.kind = .masterHb ∨ p.kind = .masterAnnounce then
    audioOne { fsm with linkCheck := linkcheckReload }
  else audioOne fsm

/-- `FSM_ESTABLISHED`. -/
def stepEstablished (fsm : ReacFsm) : FsmEvent → ReacFsm × FsmOut
  | .rx p => establishedRx fsm p
  | _ => establishedTick fsm

/-- `reac_fsm_step`. -/
def reacFsmStep (fsm : ReacFsm) (ev : FsmEvent) : ReacFsm × FsmOut :=
  match ev with
  | .phyDown => ({ fsm with state := .phyDown, haveMaster := false }).out .stop
  | ev =>
    match fsm.state with
    | .phyDown =>
      match ev with
      | .phyUp => floodTick { armFlood fsm with counter := 0 }
      | _ => fsm.out .stop
    | .floodAnnounce => stepFlood fsm ev
    | .coldconnect => courtOne (coldconnectHears fsm ev)
    | .backoff => stepBackoff fsm
    | .txMute => stepTxMute fsm ev
    | .established => stepEstablished fsm ev
    -- The link is still up after a drop: announce again.
    | .drop => floodTick (armFlood { fsm with haveMaster := false })

/-- The state machine as a machine over events. -/
def fsmMachine : Machine ReacFsm FsmEvent FsmOut := ⟨reacFsmStep⟩

@[simp] theorem fsmMachine_step (fsm : ReacFsm) (ev : FsmEvent) :
    fsmMachine.step fsm ev = reacFsmStep fsm ev := rfl

/-- A step of the state machine. -/
abbrev FsmStep := Event ReacFsm FsmEvent FsmOut

/-- The state machine of a slave at `fps` frames a second. -/
def reacFsmAt (fps : ℤ) : ReacFsm := { reacFsmInit with heartbeatPeriod := fps }

end Libreac
