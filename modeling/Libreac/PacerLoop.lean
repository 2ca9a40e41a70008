import Libreac.Pacer

/-!
# The slot clock and the send

The timing of `pacer_loop` on its two backends, with clock following off and no lateness. On the
thread backend a frame leaves at `deadline`, which advances by `period_ns` each slot; on the ETF
backend it is stamped with the launch time of a private grid (`reac_etf.c`), which accumulates the
exact rational period. Instants are nanoseconds.
-/

namespace Libreac

open Reactive (Machine)

/-- `struct reac_etf_grid`. -/
structure EtfGrid where
  launchNs : ℤ := 0
  baseNs : ℤ := 0
  slot : ℕ := 0
  whole : ℤ := 0
  rem : ℤ := 0
  frac : ℤ := 0
  fps : ℤ := 0

/-- `reac_etf_grid_init`. -/
def etfGridInit (fps baseNs : ℤ) : EtfGrid :=
  if fps ≤ 0 then {}
  else
    { fps, whole := 1000000000 / fps, rem := 1000000000 % fps, frac := 0
      baseNs, launchNs := baseNs, slot := 0 }

/-- `reac_etf_grid_advance`; a positive `steerNs` is the period the clock discipline chose. -/
def etfGridAdvance (g : EtfGrid) (steerNs : ℤ) : EtfGrid :=
  if 0 < steerNs then { g with slot := g.slot + 1, launchNs := g.launchNs + steerNs }
  else if g.fps ≤ g.frac + g.rem then
    { g with
      slot := g.slot + 1, launchNs := g.launchNs + g.whole + 1, frac := g.frac + g.rem - g.fps }
  else
    { g with slot := g.slot + 1, launchNs := g.launchNs + g.whole, frac := g.frac + g.rem }

/-- The backend that owns the egress instant; the ETF one hands frames down `leadNs` early. -/
inductive Backend where
  | thread
  | etf (leadNs : ℤ)
  deriving DecidableEq

/-- The local state of `pacer_loop` beside the pacer. -/
structure PacerLoop where
  pacer : Pacer
  backend : Backend
  grid : EtfGrid := {}
  deadline : ℤ

/-- The start of `pacer_loop` at the instant `now`. -/
def loopStart (p : Pacer) (backend : Backend) (now : ℤ) : PacerLoop :=
  match backend with
  | .thread => { pacer := p, backend, deadline := now + p.periodNs }
  | .etf leadNs =>
    let grid := etfGridInit p.fps (now + leadNs + p.periodNs)
    { pacer := p, backend, grid, deadline := grid.launchNs - leadNs }

/-- The instant the frame of the next slot leaves. -/
def PacerLoop.departs (l : PacerLoop) : ℤ :=
  match l.backend with
  | .thread => l.deadline
  | .etf _ => l.grid.launchNs

/-- The advance at the end of a slot: `period_ns` on the thread, the exact grid on ETF. -/
def loopAdvance (l : PacerLoop) : PacerLoop :=
  match l.backend with
  | .thread => { l with deadline := l.deadline + l.pacer.periodNs }
  | .etf leadNs =>
    let grid := etfGridAdvance l.grid 0
    { l with grid, deadline := grid.launchNs - leadNs }

/-- One step of the loop: a slot advances the clock, anything else only reaches the pacer. -/
def loopStep (env : Env) (l : PacerLoop) (i : PacerInput) : PacerLoop × PacerOut :=
  let (p, out) := pacerStep env l.pacer i
  match i with
  | .slot => (loopAdvance { l with pacer := p }, out)
  | _ => ({ l with pacer := p }, out)

/-- The pacer with its slot clock. -/
def loopMachine (env : Env) : Machine PacerLoop PacerInput PacerOut := ⟨loopStep env⟩

/-! ## The send -/

/-- What a step shows where the send of its slot may fail. -/
structure SendOut where
  out : PacerOut
  /-- The slot whose frame left. -/
  left : Option Sent

/-- One step of the pacer, with the outcome of the non-blocking send at the end of its slot. A send
that fails drops the slot: the pacer has moved on, and only `tx_errors` tells. -/
def sendStep (env : Env) (p : Pacer) (i : PacerInput × Bool) : Pacer × SendOut :=
  let (p, out) := pacerStep env p i.1
  (p, { out, left := if i.2 then out.sent else none })

/-- The pacer behind a wire that may refuse a frame. -/
def sendMachine (env : Env) : Machine Pacer (PacerInput × Bool) SendOut := ⟨sendStep env⟩

end Libreac
