import Libreac.Machine
import Libreac.MaskRing

/-!
# The audio ring

`struct reac_ring` of `reac_ring.c`, between the thread that decodes frames and the one that plays them.
The buffer is planar: one row of `capacity` samples for each channel. A write fills as many rows as its
source has, so the rows of a wider source before it are cleared.
-/

namespace Libreac

open Reactive (Machine)

/-- `struct reac_ring`. -/
structure AudioRing (α : Type) where
  buf : List (List α)
  capacity : UInt32
  ring : MaskRing
  channels : UInt32
  wroteChannels : UInt32 := 0
  underruns : UInt64 := 0
  overruns : UInt64 := 0

/-- What a caller writes: sample `s` of channel `c` is `planar (c * n + s)`. -/
structure CallerBlock (α : Type) where
  planar : ℕ → α
  n : UInt32
  channels : UInt32

section Operations

variable {α : Type} [Zero α]

/-- `reac_ring_init`, when the allocation succeeds. -/
def ringInit (channels capacityFrames : UInt32) : Option (AudioRing α) :=
  let cap := MaskRing.nextPow2 capacityFrames
  if capacityFrames = 0 ∨ cap = 0 then none
  else
    some
      { buf := List.replicate channels.toNat (List.replicate cap.toNat 0)
        capacity := cap, ring := { mask := cap - 1 }, channels }

/-- `reac_ring_readable`. -/
def ringReadable (r : AudioRing α) : UInt32 := r.ring.readable

/-- `reac_ring_writable`: one slot stays empty. -/
def ringWritable (r : AudioRing α) : UInt32 := r.ring.mask - ringReadable r

/-- The samples of one channel, written from `pos` on. -/
def writeRow (mask : UInt32) (row : List α) (pos : UInt32) : List α → List α
  | [] => row
  | x :: src => writeRow mask (row.set pos.toNat x) ((pos + 1) &&& mask) src

/-- `n` samples of one channel, read from `pos` on. -/
def readRow (mask : UInt32) (row : List α) (pos : UInt32) : ℕ → List α
  | 0 => []
  | n + 1 => row.getD pos.toNat 0 :: readRow mask row ((pos + 1) &&& mask) n

/-- The rows that a narrower source no longer writes are cleared. -/
def AudioRing.narrow (r : AudioRing α) (srcChannels : UInt32) : AudioRing α :=
  let r :=
    if srcChannels < r.wroteChannels then
      { r with
        buf := r.buf.mapIdx fun c row =>
          if srcChannels.toNat ≤ c ∧ c < r.wroteChannels.toNat then List.replicate r.capacity.toNat 0 else row }
    else r
  { r with wroteChannels := srcChannels }

/-- The first `w` samples of the block go into the rows; its stride stays the count that was asked for. -/
def AudioRing.fill (r : AudioRing α) (block : CallerBlock α) (srcChannels w : UInt32) : AudioRing α :=
  { r with
    buf := r.buf.mapIdx fun c row =>
      if c < srcChannels.toNat then
        writeRow r.ring.mask row r.ring.head
          ((List.range w.toNat).map fun s => block.planar (c * block.n.toNat + s))
      else row
    ring := r.ring.push w }

/-- `reac_ring_write`: how many samples of each channel were taken. -/
def ringWrite (r : AudioRing α) (block : CallerBlock α) : AudioRing α × UInt32 :=
  let srcChannels := if r.channels < block.channels then r.channels else block.channels
  let r := r.narrow srcChannels
  let freeSlots := ringWritable r
  if freeSlots < block.n then
    let r := { r with overruns := r.overruns + (block.n - freeSlots).toUInt64 }
    if freeSlots = 0 then (r, 0) else (r.fill block srcChannels freeSlots, freeSlots)
  else (r.fill block srcChannels block.n, block.n)

/-- `reac_ring_read_planar`: the rows that were filled, and how many samples of each were real. -/
def ringReadPlanar (r : AudioRing α) (channels n : UInt32) : AudioRing α × List (List α) × UInt32 :=
  let avail := ringReadable r
  let real := if avail < n then avail else n
  let nch := if channels < r.channels then channels else r.channels
  let rows := (r.buf.take nch.toNat).map fun row =>
    readRow r.ring.mask row r.ring.tail real.toNat ++ List.replicate (n - real).toNat 0
  let r := { r with ring := r.ring.pop real }
  (if real < n then { r with underruns := r.underruns + (n - real).toUInt64 } else r, rows, real)

/-- `reac_ring_trim`: how many samples went. -/
def ringTrim (r : AudioRing α) (keep : UInt32) : AudioRing α × UInt32 :=
  let avail := ringReadable r
  if avail ≤ keep then (r, 0)
  else
    let drop := avail - keep
    ({ r with ring := r.ring.pop drop }, drop)

/-! ## The ring as a machine -/

variable (α) in
/-- A call on a ring. -/
inductive AudioRingInput where
  | write (block : CallerBlock α)
  | read (channels n : UInt32)
  | trim (keep : UInt32)

variable (α) in
/-- What a call returns, and the rows it filled. -/
inductive AudioRingOut where
  | wrote (w : UInt32)
  | read (rows : List (List α)) (real : UInt32)
  | trimmed (drop : UInt32)

/-- One call. -/
def audioRingStep (r : AudioRing α) : AudioRingInput α → AudioRing α × AudioRingOut α
  | .write block =>
    let (r, w) := ringWrite r block
    (r, .wrote w)
  | .read channels n =>
    let (r, rows, real) := ringReadPlanar r channels n
    (r, .read rows real)
  | .trim keep =>
    let (r, drop) := ringTrim r keep
    (r, .trimmed drop)

/-- A ring under its calls. -/
def audioRingMachine : Machine (AudioRing α) (AudioRingInput α) (AudioRingOut α) := ⟨audioRingStep⟩

@[simp] theorem audioRingMachine_step (r : AudioRing α) (i : AudioRingInput α) :
    audioRingMachine.step r i = audioRingStep r i := rfl

end Operations

end Libreac
