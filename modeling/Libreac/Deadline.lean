import Libreac.PacerLoop

/-!
# When the next slot is due

The end of a slot in `pacer_loop` of `reac_pacer.c` with its lateness, and the launch grid of `reac_etf.c`
that it keeps on the ETF backend, both at the widths of the source: times are unsigned nanoseconds of 64
bits, the grid's remainder has 32. `PacerLoop` has the same grid over the integers.
-/

namespace Libreac.Egress

open Reactive (Machine)

/-! ## The launch grid -/

/-- `struct reac_etf_grid`. -/
structure EtfGrid where
  launchNs : UInt64
  baseNs : UInt64
  slot : UInt64 := 0
  whole : UInt32
  rem : UInt32
  frac : UInt32 := 0
  fps : UInt32
  deriving DecidableEq, Repr

/-- `reac_etf_grid_init`; `none` is its refusal. -/
def etfGridInit (fps : ℤ) (baseNs : UInt64) : Option EtfGrid :=
  if fps ≤ 0 then none
  else
    let fps := UInt32.ofInt fps
    some
      { fps, baseNs, launchNs := baseNs
        whole := (1000000000 / fps.toUInt64).toUInt32
        rem := (1000000000 % fps.toUInt64).toUInt32 }

/-- `reac_etf_grid_advance`; it returns the launch time it leaves. -/
def etfGridAdvance (g : EtfGrid) (steerNs : ℤ) : EtfGrid :=
  if 0 < steerNs then
    -- The remainder stays where it is.
    { g with slot := g.slot + 1, launchNs := g.launchNs + UInt64.ofInt steerNs }
  else
    let frac := g.frac + g.rem
    let launchNs := g.launchNs + g.whole.toUInt64
    if g.fps ≤ frac then { g with slot := g.slot + 1, frac := frac - g.fps, launchNs := launchNs + 1 }
    else { g with slot := g.slot + 1, frac, launchNs }

/-- `reac_etf_grid_rebase`: the phase moves, the remainder does not. -/
def etfGridRebase (g : EtfGrid) (nowNs : UInt64) : EtfGrid :=
  etfGridAdvance { g with baseNs := nowNs, launchNs := nowNs, slot := 0 } 0

/-- A call on a grid. -/
inductive GridInput where
  | advance (steerNs : ℤ)
  | rebase (nowNs : UInt64)
  deriving DecidableEq

/-- One call. -/
def gridStep (g : EtfGrid) : GridInput → EtfGrid
  | .advance steerNs => etfGridAdvance g steerNs
  | .rebase nowNs => etfGridRebase g nowNs

/-- A grid under its calls. -/
def gridMachine : Machine EtfGrid GridInput Unit := ⟨fun g i => (gridStep g i, ())⟩

@[simp] theorem gridMachine_step (g : EtfGrid) (i : GridInput) :
    gridMachine.step g i = (gridStep g i, ()) := rfl

/-! ## The end of a slot -/

/-- What owns the instant at which a frame leaves. -/
inductive PacerBackend where
  | thread
  | etf (grid : EtfGrid) (leadNs : UInt64)
  deriving DecidableEq

/-- What `pacer_loop` keeps of its slots. The period is positive; the loop reads it as a `uint64_t`. -/
structure SlotLoop where
  periodNs : UInt64
  catchupMaxSlots : UInt32
  backend : PacerBackend := .thread
  deadline : UInt64
  lateWakes : UInt64 := 0
  slotsCatchup : UInt64 := 0
  slotsDropped : UInt64 := 0
  slotDebtMax : UInt32 := 0
  deriving DecidableEq

/-- The deadline moves by the period of the slot, or along the grid; `steer` is the period the discipline
gives when the clock is followed. -/
def SlotLoop.advance (p : SlotLoop) (steer : Option ℤ) : SlotLoop :=
  match p.backend with
  | .thread => { p with deadline := p.deadline + (steer.map UInt64.ofInt).getD p.periodNs }
  | .etf grid leadNs =>
    let grid := etfGridAdvance grid (steer.getD 0)
    { p with backend := .etf grid leadNs, deadline := grid.launchNs - leadNs }

/-- The next slot is due one period from now. -/
def SlotLoop.rebase (p : SlotLoop) (now : UInt64) : SlotLoop :=
  match p.backend with
  | .thread => { p with deadline := now + p.periodNs }
  | .etf grid leadNs =>
    let grid := etfGridRebase grid (now + leadNs)
    { p with backend := .etf grid leadNs, deadline := grid.launchNs - leadNs }

/-- The slots that are owed at `now`: `behind`. -/
def SlotLoop.behind (p : SlotLoop) (now : UInt64) : UInt64 := (now - p.deadline) / p.periodNs + 1

/-- The debt is within the budget. -/
def SlotLoop.repays (p : SlotLoop) (now : UInt64) : Bool :=
  p.catchupMaxSlots ≠ 0 ∧ p.behind now ≤ p.catchupMaxSlots.toUInt64

/-- The worst single debt so far. -/
def SlotLoop.noteDebt (p : SlotLoop) (behind : UInt64) : SlotLoop :=
  let b32 := if 4294967295 < behind then 4294967295 else behind.toUInt32
  { p with slotDebtMax := if p.slotDebtMax < b32 then b32 else p.slotDebtMax }

/-- The end of a slot of `pacer_loop`; `now` is the reading of the backend's clock after the advance. -/
def slotEnd (p : SlotLoop) (steer : Option ℤ) (now : UInt64) : SlotLoop :=
  let p := p.advance steer
  if p.deadline < now then
    let behind := p.behind now
    let repays := p.repays now
    let p := ({ p with lateWakes := p.lateWakes + 1 }.noteDebt behind)
    -- Within the budget the deadline stays in the past, and the owed slots go out at once.
    if repays then { p with slotsCatchup := p.slotsCatchup + 1 }
    else { p with slotsDropped := p.slotsDropped + behind }.rebase now
  else p

/-- The slots of a pacer that does not follow a clock, one reading each. -/
def slotMachine : Machine SlotLoop UInt64 Unit := ⟨fun p now => (slotEnd p none now, ())⟩

@[simp] theorem slotMachine_step (p : SlotLoop) (now : UInt64) :
    slotMachine.step p now = (slotEnd p none now, ()) := rfl

end Libreac.Egress
