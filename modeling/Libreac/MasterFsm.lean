import Mathlib.Data.Nat.Notation

/-!
# The master's transition table

`reac_master_fsm.c`: the establishment decisions as a pure table. The producers
(`masterRx`, `masterNext`) fold their guards into one decision event with `fsmClassify`, look up the
edge with `fsmStep` and run the entry action the edge names.
-/

namespace Libreac

/-- `enum reac_master_state`. -/
inductive MasterState where
  | idle | probing | granting | established
  deriving DecidableEq, Repr

/-- `enum reac_master_rx_event`: what the pacer feeds in. -/
inductive RxEvent where
  | bcastFiller | join | unicast | heartbeat | bye | config
  deriving DecidableEq, Repr

/-- `enum reac_master_drop_reason`. -/
inductive DropReason where
  | none | peerGone | bye | macChange | grantTimeout | boxUnknown
  deriving DecidableEq, Repr

/-- `enum reac_master_ev`: the decision events, with the guards folded in. -/
inductive MasterEv where
  | start | presence | joinNew | joinSame | config | configEarly | accept | acceptEarly | bye
  | grantDelivered | linkLost | boxUnknown
  deriving DecidableEq, Repr

/-- `struct reac_master_edge`. -/
structure MasterEdge where
  next : MasterState
  /-- Run the entry action of `next`. -/
  enter : Bool
  /-- The reason to latch; `none` leaves the last one. -/
  drop : DropReason
  /-- What `reac_master_rx` reports. -/
  transitioned : Bool
  deriving DecidableEq, Repr

/-- `reac_master_fsm_classify`. -/
def fsmClassify (ev : RxEvent) (haveBlk sameBox grantDelivered : Bool) : MasterEv :=
  match ev with
  | .bcastFiller => .presence
  | .join => if !haveBlk then .presence else if sameBox then .joinSame else .joinNew
  | .config => if grantDelivered then .config else .configEarly
  | .unicast | .heartbeat => if grantDelivered then .accept else .acceptEarly
  | .bye => .bye

/-- A `HOLD` row: stay put, no entry action. -/
def MasterEdge.hold (s : MasterState) : MasterEdge := ⟨s, false, .none, false⟩

/-- A `GO` row: run the entry action of `next`. -/
def MasterEdge.go (next : MasterState) (drop : DropReason) (ret : Bool) : MasterEdge := ⟨next, true, drop, ret⟩

/-- `reac_master_fsm_step`, the table `EDGE`. Both enumerations are closed here, so the source's
out-of-range row has no counterpart. -/
def fsmStep (s : MasterState) (ev : MasterEv) : MasterEdge :=
  match s, ev with
  | .idle, .start => .go .probing .none false
  | .idle, _ => .hold .idle
  | .probing, .joinNew | .probing, .joinSame | .probing, .config | .probing, .configEarly =>
    .go .granting .none true
  | .probing, _ => .hold .probing
  | .granting, .joinNew => .go .granting .none true
  | .granting, .config | .granting, .accept | .granting, .grantDelivered =>
    .go .established .none true
  | .granting, .bye => .go .probing .bye true
  | .granting, .boxUnknown => .go .probing .boxUnknown true
  | .granting, _ => .hold .granting
  | .established, .joinNew => .go .granting .macChange true
  | .established, .bye => .go .probing .bye true
  | .established, .linkLost => .go .probing .peerGone true
  | .established, _ => .hold .established

end Libreac
