import Libreac.Machine
import Mathlib.Data.UInt

/-!
# Whether the wire carries the pace it is taken to carry

`reac_pace_watch.c`: the frames of a peer are counted over windows of two seconds, and where a window that
was not disturbed has another pace than the configured one the operator is told, on sight and then twice a
minute at most. Instants are counts of nanoseconds in 64 bits.
-/

namespace Libreac

open Reactive (Machine)

/-- `REAC_PACE_WINDOW_NS`, `REAC_PACE_MIN_FRAMES`, `REAC_PACE_MAX_GAP_NS` and `REAC_PACE_WARN_INTERVAL_NS`. -/
def paceWindowNs : UInt64 := 2000000000
def paceMinFrames : UInt64 := 1000
def paceMaxGapNs : UInt64 := 5000000
def paceWarnIntervalNs : UInt64 := 30000000000

/-- `reac_rate_snap` on so many frames in so many nanoseconds. A window that gets this far is too short for
the rounding of a quotient of doubles to reach a midpoint, so the quotient is an exact one here. -/
def rateSnapOver (frames elapsed : UInt64) : ℤ :=
  if 2 * (frames.toNat * 1000000000) < 7675 * elapsed.toNat then 44100
  else if frames.toNat * 1000000000 < 6000 * elapsed.toNat then 48000
  else 96000

/-- `struct reac_pace_watch`. -/
structure PaceWatch where
  configuredRate : ℤ
  observedRate : ℤ := 0
  winStart : UInt64 := 0
  winFrames : UInt64 := 0
  winLast : UInt64 := 0
  winMaxGap : UInt64 := 0
  warned : UInt64 := 0
  windowsBad : UInt64 := 0
  windowsDisturbed : UInt64 := 0

/-- `win_open`. -/
def PaceWatch.winOpen (w : PaceWatch) (now : UInt64) : PaceWatch :=
  { w with winStart := now, winLast := now, winFrames := 0, winMaxGap := 0 }

/-- `reac_pace_watch_init`. -/
def paceWatchInit (configuredRate : ℤ) : PaceWatch := { configuredRate }

/-- `reac_pace_watch_reset`. -/
def paceWatchReset (w : PaceWatch) (now : UInt64) : PaceWatch := { w with observedRate := 0 }.winOpen now

/-- The verdict on a window that has closed. -/
def PaceWatch.judge (w : PaceWatch) (now frames elapsed : UInt64) : PaceWatch × Bool :=
  let observed := rateSnapOver frames elapsed
  let w := { w with observedRate := observed }
  if observed = w.configuredRate then ({ w with warned := 0 }, false)
  else
    let w := { w with windowsBad := w.windowsBad + 1 }
    if w.warned ≠ 0 ∧ now - w.warned < paceWarnIntervalNs then (w, false) else ({ w with warned := now }, true)

/-- `reac_pace_watch_frame`. -/
def paceWatchFrame (w : PaceWatch) (now : UInt64) : PaceWatch × Bool :=
  if w.winStart = 0 then ({ w.winOpen now with winFrames := 1 }, false)
  else
    let gap := now - w.winLast
    let w :=
      { w with
        winMaxGap := if w.winMaxGap < gap then gap else w.winMaxGap
        winLast := now, winFrames := w.winFrames + 1 }
    let elapsed := now - w.winStart
    if elapsed < paceWindowNs then (w, false)
    else if w.winFrames < paceMinFrames ∨ paceMaxGapNs < w.winMaxGap then
      ({ w with windowsDisturbed := w.windowsDisturbed + 1 }.winOpen now, false)
    else (w.winOpen now).judge now w.winFrames elapsed

/-- A frame of the peer, or another peer. -/
inductive PaceInput where
  | frame (now : UInt64)
  | reset (now : UInt64)

/-- The watch; it answers whether the operator is to be told. -/
def paceMachine : Machine PaceWatch PaceInput Bool where
  step w
    | .frame now => paceWatchFrame w now
    | .reset now => (paceWatchReset w now, false)

end Libreac
