import Libreac.Rx

/-!
# The receiver while it runs

The loop of `reac_rx.c` with what happens around it: the session calls of the control thread between
two frames, and the rate window of `update_ppm`, which a frame is credited to when it passes the counter
gate. The published estimate is a floating-point function of a window's frames and duration; the pair
stands for it. The offline source's jump back to the start of its file is left out.
-/

namespace Libreac

open Reactive (Machine Event)

/-- The window of `update_ppm`, and the last estimate it published. -/
structure RateWindow where
  haveLast : Bool := false
  lastCounter : UInt16 := 0
  startNs : UInt64 := 0
  frames : UInt32 := 0
  seq : UInt32 := 0
  /-- The frames and the duration behind `ppm_error_milli`, if it is not at rest. -/
  estimate : Option (UInt32 × UInt64) := none
  deriving DecidableEq

/-- `update_ppm`. -/
def updatePpm (w : RateWindow) (counter : UInt16) (now : UInt64) : RateWindow :=
  let w :=
    if w.haveLast then { w with frames := w.frames + ((counterGap w.lastCounter counter).toUInt32 + 1) }
    else { w with startNs := now, haveLast := true }
  let w := { w with lastCounter := counter }
  let dt := now - w.startNs
  if 250000000 ≤ dt then
    { w with estimate := some (w.frames, dt), seq := w.seq + 1, startNs := now, frames := 0 }
  else w

/-- What a new peer epoch leaves of the window. -/
def RateWindow.forget (w : RateWindow) : RateWindow :=
  { w with haveLast := false, frames := 0, estimate := none }

/-- The receiver and its rate window. -/
structure RxLoop where
  rx : Rx
  window : RateWindow := {}

/-- The loop as it starts on an opened receiver: a peer may be named already, nothing was heard. -/
def rxLoopStart (rx : Rx) : RxLoop :=
  { rx := {
      accept := rx.accept, upSrc := rx.upSrc, upSrcLocked := rx.upSrcLocked
      peerSession := rx.peerSession, peerEpoch := rx.peerEpoch, seenEpoch := rx.peerEpoch } }

/-- What reaches the receiver: a session call, or a frame and the clock at it. -/
inductive RxLoopInput where
  | sessionEnd
  | peerReset (mac : Mac) (session : UInt32)
  | frame (bytes : List UInt8) (now : UInt64)

/-- The frame went through the counter gate. -/
def RxOut.followed : RxOut → Bool
  | .decoded _ => true
  | .bad => true
  | _ => false

/-- One input. The epoch check of the body drops the window, and a frame that is followed is credited
to it. -/
def rxLoopStep (s : RxLoop) : RxLoopInput → RxLoop × RxOut
  | .sessionEnd => ({ s with rx := rxSessionEnd s.rx }, .ignored)
  | .peerReset mac session => ({ s with rx := rxPeerReset s.rx mac session }, .ignored)
  | .frame bytes now =>
    let (rx, out) := rxLoopBody s.rx bytes
    let window := if rx.seenEpoch = s.rx.seenEpoch then s.window else s.window.forget
    let window := if out.followed then updatePpm window (frameCounter bytes) now else window
    ({ rx, window }, out)

/-- The running receiver. -/
def rxLoopMachine : Machine RxLoop RxLoopInput RxOut := ⟨rxLoopStep⟩

@[simp] theorem rxLoopMachine_step (s : RxLoop) (i : RxLoopInput) :
    rxLoopMachine.step s i = rxLoopStep s i := rfl

abbrev RxLoopEvent := Event RxLoop RxLoopInput RxOut

/-- The counter of the frame is refused where it stands, so following it is a resync. -/
def Rx.wouldResync (rx : Rx) (counter : UInt16) : Bool :=
  (rxEpochCheck rx).haveCounter && !counterAhead (rxEpochCheck rx).lastCounter counter

/-- What a followed frame shows of the receiver: what it was decoded to, whether it was a resync, the
gaps counted so far and the rate window behind it. -/
structure Followed where
  out : RxOut
  resync : Bool
  counterGaps : ℕ
  window : RateWindow
  deriving DecidableEq

/-- What the step shows, if it followed a frame. -/
def followedOf (e : RxLoopEvent) : Option Followed :=
  match e.input with
  | .frame bytes _ =>
    if e.out.followed then
      some { out := e.out, resync := e.pre.rx.wouldResync (frameCounter bytes),
             counterGaps := e.post.rx.counterGaps, window := e.post.window }
    else none
  | _ => none

end Libreac
