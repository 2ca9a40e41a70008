import Libreac.Ctrl
import Libreac.Machine

/-!
# The pace of one stream

`struct rate_track` and `rate_track_feed` of `reac.c`: the rate is taken from the frames of one source
and from the advance of their own counter. A clock reading is of any type: the code only keeps it.
-/

namespace Libreac

open Reactive

variable {τ : Type}

/-- A frame and the clock it was read at. -/
structure HeardFrame (τ : Type) where
  bytes : List UInt8
  now : τ

/-- The source address of a frame. -/
def HeardFrame.source (f : HeardFrame τ) : Mac := macAt f.bytes 6

/-- The sequence counter of a frame. -/
def HeardFrame.counter (f : HeardFrame τ) : UInt16 := frameCounter f.bytes

/-- `struct rate_track`; `advance` is an `unsigned long`. -/
@[ext] structure RateTrack (τ : Type) where
  have_ : Bool
  mac : Mac
  lastCounter : UInt16
  advance : UInt64
  first : τ
  last : τ

/-- `struct rate_track t = { 0 }`, `origin` being the zero of the clock. -/
def RateTrack.zero (origin : τ) : RateTrack τ :=
  { have_ := false, mac := noMac, lastCounter := 0, advance := 0, first := origin, last := origin }

/-- `rate_track_feed`. -/
def rateTrackFeed (t : RateTrack τ) (f : HeardFrame τ) : RateTrack τ :=
  if !t.have_ then
    { t with mac := f.source, lastCounter := f.counter, first := f.now, last := f.now, have_ := true }
  else if t.mac ≠ f.source then t
  else
    let step := f.counter - t.lastCounter
    if step = 0 ∨ 0x8000 < step then t
    else { t with advance := t.advance + step.toUInt64, lastCounter := f.counter, last := f.now }

/-- Frame after frame. -/
def rateMachine : Machine (RateTrack τ) (HeardFrame τ) Unit where
  step t f := (rateTrackFeed t f, ())

end Libreac
