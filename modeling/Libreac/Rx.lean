import Libreac.Ctrl
import Libreac.Machine

/-!
# The receiver

`reac_rx.c`: the loop body that decides which frames reach the audio ring, and the two calls that
tell it about sessions. A frame passes the stream gate, the duplicate guard, the epoch check and the
counter gate before it is decoded. The rate estimator, the pace alarm and the audio samples
themselves are left out.
-/

namespace Libreac

open Reactive (Machine)

/-- `enum reac_rx_accept`. -/
inductive RxAccept where
  | downstream | upstream
  deriving DecidableEq, Repr

/-- `struct reac_rx` together with the locals of `rx_loop`. -/
structure Rx where
  accept : RxAccept
  upSrc : Mac := noMac
  upSrcLocked : Bool := false
  peerSession : UInt32 := 0
  peerEpoch : UInt32 := 0
  seenEpoch : UInt32 := 0
  /-- The clean bytes of the previous frame, if it is kept. -/
  prevFrame : Option (List UInt8) := none
  haveCounter : Bool := false
  lastCounter : UInt16 := 0
  staleRun : ℕ := 0
  staleLast : UInt16 := 0
  counterGaps : ℕ := 0
  framesOther : ℕ := 0
  framesDup : ℕ := 0
  framesOk : ℕ := 0
  framesBad : ℕ := 0

/-! ## Sessions -/

/-- `reac_rx_session_end`. -/
def rxSessionEnd (rx : Rx) : Rx := { rx with peerEpoch := rx.peerEpoch + 1 }

/-- `reac_rx_peer_reset`: the same peer and session again is nothing new. -/
def rxPeerReset (rx : Rx) (mac : Mac) (session : UInt32) : Rx :=
  if rx.upSrcLocked ∧ rx.upSrc = mac ∧ rx.peerSession = session then rx
  else
    { rx with
      peerSession := session, upSrc := mac, upSrcLocked := true, peerEpoch := rx.peerEpoch + 1 }

/-! ## The loop body -/

/-- `reac_frame_is_reac`. -/
def frameIsReac (frame : List UInt8) : Bool :=
  14 ≤ frame.length ∧ byteAt frame 12 = 0x88 ∧ byteAt frame 13 = 0x19

/-- `gate_accepts`, on the clean frame: whether the frame belongs to the stream, and the lock it
may take. -/
def gateAccepts (rx : Rx) (frame : List UInt8) : Rx × Bool :=
  let broadcast : Bool := macAt frame 0 = broadcastMac
  let src := macAt frame 6
  match rx.accept with
  | .downstream =>
    if frame.length ≠ 1492 ∨ broadcast = false then (rx, false)
    else (rx, !rx.upSrcLocked || rx.upSrc == src)
  | .upstream =>
    if !upstreamLenOk frame.length then (rx, false)
    else if !rx.upSrcLocked then
      if broadcast then (rx, false) else ({ rx with upSrc := src, upSrcLocked := true }, true)
    else (rx, rx.upSrc == src)

/-- `reac_counter_gap`. -/
def counterGap (last cur : UInt16) : UInt16 := cur - last - 1

/-- `counter_ahead`, in serial-number arithmetic. -/
def counterAhead (last cur : UInt16) : Bool := counterGap last cur < 0x8000

/-- `feed_frame` decodes the frame: its end marker closes it. -/
def frameDecodes (accept : RxAccept) (frame : List UInt8) : Bool :=
  (match accept with
    | .upstream => upstreamLenOk frame.length
    | .downstream => frame.length = 1492) &&
  (byteAt frame 12 = 0x88 ∧ byteAt frame 13 = 0x19 ∧ byteAt frame (frame.length - 2) = 0xc2 ∧
    byteAt frame (frame.length - 1) = 0xea)

/-- What became of a frame. -/
inductive RxOut where
  /-- Not a REAC frame: not counted. -/
  | ignored
  | other
  | dup
  | bad
  | decoded (frame : List UInt8)
  deriving DecidableEq

/-- The epoch check: a new session drops everything learned from the last one. -/
def rxEpochCheck (rx : Rx) : Rx :=
  if rx.peerEpoch ≠ rx.seenEpoch then
    { rx with seenEpoch := rx.peerEpoch, haveCounter := false, staleRun := 0, prevFrame := none }
  else rx

/-- The length of the refused run that this counter continues or opens. -/
def Rx.nextRun (rx : Rx) (counter : UInt16) : ℕ :=
  if rx.staleRun ≠ 0 ∧ counter = rx.staleLast + 1 then rx.staleRun + 1 else 1

/-- A frame the counter gate lets through: count the gap, follow the counter, decode. -/
def rxFollow (rx : Rx) (counter : UInt16) (frame : List UInt8) : Rx × RxOut :=
  let gap := if rx.haveCounter then (counterGap rx.lastCounter counter).toNat else 0
  let rx := { rx with
    staleRun := 0, counterGaps := rx.counterGaps + gap, lastCounter := counter
    haveCounter := true }
  if frameDecodes rx.accept frame then
    ({ rx with framesOk := rx.framesOk + 1 }, .decoded frame)
  else ({ rx with framesBad := rx.framesBad + 1 }, .bad)

/-- The counter gate: a frame that is not ahead is refused, unless eight that continue each other
show that the stream has moved. -/
def rxCounterGate (rx : Rx) (frame : List UInt8) : Rx × RxOut :=
  let counter := frameCounter frame
  if rx.haveCounter ∧ counterAhead rx.lastCounter counter = false then
    let run := rx.nextRun counter
    let rx := { rx with staleRun := run, staleLast := counter }
    if run < 8 then ({ rx with framesOther := rx.framesOther + 1 }, .other)
    else rxFollow { rx with haveCounter := false } counter frame
  else rxFollow rx counter frame

/-- The body of `rx_loop`. -/
def rxLoopBody (rx : Rx) (bytes : List UInt8) : Rx × RxOut :=
  if !frameIsReac bytes then (rx, .ignored)
  else
    let frame := cleanFrame bytes
    match gateAccepts rx frame with
    | (rx, false) => ({ rx with framesOther := rx.framesOther + 1 }, .other)
    | (rx, true) =>
      if rx.prevFrame = some frame then ({ rx with framesDup := rx.framesDup + 1 }, .dup)
      else
        let rx := if frame.length ≤ 1560 then { rx with prevFrame := some frame } else rx
        rxCounterGate (rxEpochCheck rx) frame

/-- The receiver as a machine over the frames that arrive. -/
def rxMachine : Machine Rx (List UInt8) RxOut := ⟨rxLoopBody⟩

end Libreac
