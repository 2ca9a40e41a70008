import Libreac.Machine
import Libreac.MaskRing

/-!
# The frame ring

`struct reac_frame_ring` of `reac_pacer.c`, between the thread that encodes frames and the one that sends
them. A cell is a row of the buffer and the length of the frame in it. An access outside the row, or
outside the two allocations, has no result.
-/

namespace Libreac

open Reactive (Machine)

/-- A frame of the caller's: `n` bytes of it are to be taken. -/
structure CallerFrame where
  bytes : List UInt8
  n : UInt16
  fits : n.toNat ≤ bytes.length

/-- `struct reac_frame_ring`. -/
structure FrameRing where
  buf : List (List UInt8)
  len : List UInt16
  slots : UInt32
  ring : MaskRing
  slotSz : UInt32
  overruns : UInt64 := 0
  underruns : UInt64 := 0

/-- `reac_frame_ring_init`, when the allocations succeed. -/
def frameRingInit (slots slotSz : UInt32) : FrameRing :=
  let n := MaskRing.nextPow2 slots
  { buf := List.replicate n.toNat (List.replicate slotSz.toNat 0)
    len := List.replicate n.toNat 0
    slots := n, ring := { mask := n - 1 }, slotSz }

/-- `reac_frame_ring_readable`. -/
def frameRingReadable (r : FrameRing) : UInt32 := r.ring.readable

/-- `reac_frame_ring_push`: whether the frame was taken. -/
def frameRingPush (r : FrameRing) (frame : CallerFrame) : Option (FrameRing × Bool) :=
  let n := if r.slotSz < frame.n.toUInt32 then r.slotSz.toUInt16 else frame.n
  if (r.ring.head + 1) &&& r.ring.mask = r.ring.tail &&& r.ring.mask then
    some ({ r with overruns := r.overruns + 1 }, false)
  else
    let slot := (r.ring.head &&& r.ring.mask).toNat
    match r.buf[slot]?, r.len[slot]? with
    | some row, some _ =>
      if row.length < n.toNat then none
      else
        some
          ({ r with
            buf := r.buf.set slot (frame.bytes.take n.toNat ++ row.drop n.toNat)
            len := r.len.set slot n
            ring := r.ring.push 1 }, true)
    | _, _ => none

/-- `reac_frame_ring_trim_count`. -/
def frameRingTrimCount (depth high target : UInt32) : UInt32 :=
  if depth ≤ high then 0 else if depth ≤ target then 0 else depth - target

/-- `reac_frame_ring_trim`: how many frames went. -/
def frameRingTrim (r : FrameRing) (high target : UInt32) : FrameRing × UInt32 :=
  let drop := frameRingTrimCount (frameRingReadable r) high target
  if drop = 0 then (r, 0) else ({ r with ring := r.ring.pop drop }, drop)

/-- `reac_frame_ring_pop`: the bytes that were copied out; an empty ring has none to copy. -/
def frameRingPop (r : FrameRing) : Option (FrameRing × Option (List UInt8)) :=
  if r.ring.tail &&& r.ring.mask = r.ring.head &&& r.ring.mask then
    some ({ r with underruns := r.underruns + 1 }, none)
  else
    let slot := (r.ring.tail &&& r.ring.mask).toNat
    match r.buf[slot]?, r.len[slot]? with
    | some row, some n =>
      if row.length < n.toNat then none
      else some ({ r with ring := r.ring.pop 1 }, some (row.take n.toNat))
    | _, _ => none

/-! ## The ring as a machine -/

/-- A call on a ring. -/
inductive FrameRingInput where
  | push (frame : CallerFrame)
  | pop
  | trim (high target : UInt32)

/-- What a call returns. -/
inductive FrameRingOut where
  | pushed (taken : Bool)
  | popped (frame : Option (List UInt8))
  | trimmed (drop : UInt32)
  | outside
  deriving DecidableEq

/-- One call; a ring that was accessed outside its memory is no more. -/
def frameRingStep : Option FrameRing → FrameRingInput → Option FrameRing × FrameRingOut
  | none, _ => (none, .outside)
  | some r, .push frame =>
    match frameRingPush r frame with
    | some (r, taken) => (some r, .pushed taken)
    | none => (none, .outside)
  | some r, .pop =>
    match frameRingPop r with
    | some (r, frame) => (some r, .popped frame)
    | none => (none, .outside)
  | some r, .trim high target =>
    let (r, drop) := frameRingTrim r high target
    (some r, .trimmed drop)

/-- A ring under its calls. -/
def frameRingMachine : Machine (Option FrameRing) FrameRingInput FrameRingOut := ⟨frameRingStep⟩

@[simp] theorem frameRingMachine_step (r : Option FrameRing) (i : FrameRingInput) :
    frameRingMachine.step r i = frameRingStep r i := rfl

end Libreac
