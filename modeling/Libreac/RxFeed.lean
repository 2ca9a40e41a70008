import Libreac.RxLoop

/-!
# The receiver on its source

What `rx_loop` does besides following the stream: an offline source that has come to the end of its file
starts it over, and a second frame with the counter the loop stands at is reported as an impersonation,
once. A peer change falls between two frames; one that falls within the body of the loop is the same as
one before the frame, but for the source the gate has looked at.
-/

namespace Libreac

open Reactive (Machine Event)

/-- What the report says: the counter, and the source that the frame claims. -/
structure RxConflict where
  counter : UInt16
  src : Mac
  deriving DecidableEq

/-- The counter gate refuses the frame, and its counter is the last accepted one. -/
def rxGateConflict (rx : Rx) (frame : List UInt8) : Option RxConflict :=
  let counter := frameCounter frame
  if rx.haveCounter ∧ counterAhead rx.lastCounter counter = false ∧ rx.nextRun counter < 8 ∧
      counter = rx.lastCounter then
    some { counter, src := macAt frame 6 }
  else none

/-- What the body of `rx_loop` finds to report, on its way through the same tests as `rxLoopBody`. -/
def rxBodyConflict (rx : Rx) (bytes : List UInt8) : Option RxConflict :=
  if !frameIsReac bytes then none
  else
    let frame := cleanFrame bytes
    match gateAccepts rx frame with
    | (_, false) => none
    | (rx, true) =>
      if rx.prevFrame = some frame then none
      else
        let rx := if frame.length ≤ 1560 then { rx with prevFrame := some frame } else rx
        rxGateConflict (rxEpochCheck rx) frame

/-- The loop, and whether it has said so already. -/
structure RxFeed where
  loop : RxLoop
  conflictSaid : Bool := false

/-- The source: a step of the running loop, or the end of the file. -/
inductive RxFeedInput where
  | loop (i : RxLoopInput)
  | seam

/-- What became of the input, and the report, if one was made. -/
structure RxFeedOut where
  out : RxOut
  conflict : Option RxConflict := none

/-- The end of the file: nothing of the last pass is continued. -/
def rxSeam (s : RxLoop) : RxLoop where
  rx := { s.rx with haveCounter := false, staleRun := 0, prevFrame := none }
  window := { s.window with haveLast := false, frames := 0 }

/-- The report the input leads to. -/
def RxFeed.conflict (s : RxFeed) : RxFeedInput → Option RxConflict
  | .loop (.frame bytes _) => if s.conflictSaid then none else rxBodyConflict s.loop.rx bytes
  | _ => none

/-- One input. -/
def rxFeedStep (s : RxFeed) (i : RxFeedInput) : RxFeed × RxFeedOut :=
  let conflict := s.conflict i
  let conflictSaid := s.conflictSaid || conflict.isSome
  match i with
  | .loop i =>
    let (loop, out) := rxLoopStep s.loop i
    ({ loop, conflictSaid }, { out, conflict })
  | .seam => ({ loop := rxSeam s.loop, conflictSaid }, { out := .ignored, conflict })

/-- The receiver on its source. -/
def rxFeedMachine : Machine RxFeed RxFeedInput RxFeedOut := ⟨rxFeedStep⟩

@[simp] theorem rxFeedMachine_step (s : RxFeed) (i : RxFeedInput) :
    rxFeedMachine.step s i = rxFeedStep s i := rfl

abbrev RxFeedEvent := Event RxFeed RxFeedInput RxFeedOut

/-- The receiver when the thread starts. -/
def rxFeedStart (rx : Rx) : RxFeed where
  loop := rxLoopStart rx

/-- The counter of the frame the step followed, if it followed one. -/
def followedCounter (e : RxFeedEvent) : Option UInt16 :=
  match e.input with
  | .loop (.frame bytes _) => if e.out.out.followed then some (frameCounter bytes) else none
  | _ => none

end Libreac
