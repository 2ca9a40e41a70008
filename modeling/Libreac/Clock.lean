import Mathlib.Data.Rat.Floor
import Libreac.Hunt
import Libreac.Smooth

/-!
# The clock discipline

`reac_clock.c`: which reference the pace is disciplined to, the loop that follows it, and the state that
is published about it. Measurements and corrections are exact rationals in parts per million, where the
source has doubles; a standard deviation is compared by its square. The 64-bit counters are naturals,
the generation wraps.
-/

namespace Libreac

open Reactive (Machine)

/-! ## References -/

/-- `enum reac_clock_source`. -/
inductive ClockSource where
  | freerun | box | graph | phc | wire
  deriving DecidableEq, Repr

/-- `enum reac_clock_quality`, worst first. -/
inductive ClockQuality where
  | unusable | marginal | ungraded | good | designated
  deriving DecidableEq, Repr

/-- `enum reac_clock_stability`. -/
inductive ClockStability where
  | unknown | stable | unstable
  deriving DecidableEq, Repr

/-- `enum reac_clock_state`. -/
inductive ClockState where
  | unlocked | locking | locked | holdover
  deriving DecidableEq, Repr

/-- The enumerator's value: a quality is the better the greater it is. -/
def ClockQuality.rank : ClockQuality → ℕ
  | .unusable => 0
  | .marginal => 1
  | .ungraded => 2
  | .good => 3
  | .designated => 4

/-- The source's bit of an availability mask. -/
def ClockSource.bit : ClockSource → UInt32
  | .freerun => 1
  | .box => 2
  | .graph => 4
  | .phc => 8
  | .wire => 16

/-- `reac_clock_hierarchy`: `master_hier` and `slave_hier`, best first. -/
def clockHierarchy : Role → List ClockSource
  | .master => [.phc, .graph, .box]
  | .slave => [.wire]

/-- `reac_clock_select_graded`: the first source of the hierarchy that is there and good enough. -/
def clockSelectGraded (role : Role) (avail : UInt32) (quality : ClockSource → ClockQuality)
    (minQuality : ClockQuality) : ClockSource :=
  ((clockHierarchy role).find? fun s =>
    avail &&& s.bit ≠ 0 ∧ minQuality.rank ≤ (quality s).rank).getD .freerun

/-- `reac_clock_quality_apply`. -/
def clockQualityApply (src : ClockSource) (inferred : ClockQuality) (measured : ClockStability) :
    ClockQuality :=
  if inferred = .unusable then .unusable
  else if measured = .unstable then .marginal
  -- A box that recovers its clock from ours measures as perfect.
  else if measured = .stable ∧ src ≠ .box ∧ inferred.rank < ClockQuality.good.rank then .good
  else inferred

/-! ## The loop -/

/-- `REAC_DLL_KP`. -/
def dllKp : ℚ := 1 / 4

/-- `REAC_DLL_MAX_PPM`. -/
def dllMaxPpm : ℚ := 200

/-- `REAC_DLL_SLEW_PPM`. -/
def dllSlewPpm : ℚ := 10

/-- `REAC_DLL_SANE_PPM`. -/
def dllSanePpm : ℚ := 2000

/-- `REAC_DLL_LOCK_PPM`. -/
def dllLockPpm : ℚ := 2

/-- `REAC_DLL_LOCK_UPDATES`. -/
def dllLockUpdates : ℕ := 4

/-- `REAC_DLL_RESID_ALPHA`. -/
def dllResidAlpha : ℚ := 1 / 10

/-- `REAC_DLL_STAB_ALPHA`. -/
def dllStabAlpha : ℚ := 1 / 50

/-- `REAC_DLL_STAB_MIN_N`. -/
def dllStabMinN : ℕ := 32

/-- `REAC_DLL_STABLE_PPM`. -/
def dllStablePpm : ℚ := 1 / 2

/-- `REAC_DLL_UNSTABLE_PPM`. -/
def dllUnstablePpm : ℚ := 4

/-- `struct reac_dll`. -/
structure Dll where
  nominalNs : ℕ
  appliedPpm : ℚ := 0
  lastResidual : ℚ := 0
  residEma : ℚ := 0
  residMean : ℚ := 0
  residVar : ℚ := 0
  stabN : ℕ := 0
  stabVerdict : ClockStability := .unknown
  updates : ℕ := 0
  rejected : ℕ := 0
  clamped : ℕ := 0

/-- `reac_dll_init`. -/
def dllInit (nominalNs : ℕ) : Dll := { nominalNs }

/-- The sample is not garbage. -/
def dllSane (measured : ℚ) : Bool := -dllSanePpm < measured ∧ measured < dllSanePpm

/-- The correction glides toward the measurement. -/
def Dll.steer (d : Dll) (measured : ℚ) : Dll :=
  let residual := measured - d.appliedPpm
  let target := d.appliedPpm + dllKp * residual
  { d with
    appliedPpm := d.appliedPpm + Smooth.clamp dllSlewPpm (Smooth.clamp dllMaxPpm target - d.appliedPpm)
    lastResidual := residual
    clamped := if dllMaxPpm < target ∨ target < -dllMaxPpm then d.clamped + 1 else d.clamped }

/-- The residual enters the average the lock is decided on; the first one seeds it. -/
def Dll.average (d : Dll) (residual : ℚ) : Dll :=
  { d with
    residEma := if d.updates = 0 then |residual| else Smooth.ema dllResidAlpha d.residEma |residual|
    updates := d.updates + 1 }

/-- The verdict of the stability series, with hysteresis. -/
def Dll.judge (d : Dll) : Dll :=
  if d.stabN < dllStabMinN then d
  else if d.residVar < dllStablePpm ^ 2 then { d with stabVerdict := .stable }
  else if dllUnstablePpm ^ 2 < d.residVar then { d with stabVerdict := .unstable }
  else d

/-- The residual enters the stability series. -/
def Dll.observe (d : Dll) (residual : ℚ) : Dll :=
  let delta := residual - d.residMean
  Dll.judge
    { d with
      residMean := if d.stabN = 0 then residual else d.residMean + dllStabAlpha * delta
      residVar := if d.stabN = 0 then 0 else Smooth.ema dllStabAlpha d.residVar (delta * delta)
      stabN := d.stabN + 1 }

/-- `reac_dll_update`: the loop, and whether it took the sample. -/
def dllUpdate (d : Dll) (measured : ℚ) : Dll × Bool :=
  if !dllSane measured then ({ d with rejected := d.rejected + 1 }, false)
  else
    let residual := measured - d.appliedPpm
    -- The stability series takes the samples that find the loop in band.
    let tracking : Bool := 0 < d.updates ∧ d.residEma < dllLockPpm
    let d := (d.steer measured).average residual
    (if tracking then d.observe residual else d, true)

/-- `reac_dll_stability`. -/
def dllStability (d : Dll) : ClockStability := if d.stabN < dllStabMinN then .unknown else d.stabVerdict

/-- `reac_dll_stability_reset`. -/
def dllStabilityReset (d : Dll) : Dll :=
  { d with residMean := 0, residVar := 0, stabN := 0, stabVerdict := .unknown }

/-- `reac_dll_period_ns`. -/
def dllPeriodNs (d : Dll) : ℕ :=
  let ns := ((d.nominalNs : ℚ) / (1 + d.appliedPpm / 1000000) + 1 / 2).floor.toNat
  if 0 < ns then ns else d.nominalNs

/-- A loop under its updates. -/
def dllMachine : Machine Dll ℚ Bool := ⟨dllUpdate⟩

@[simp] theorem dllMachine_step (d : Dll) (measured : ℚ) :
    dllMachine.step d measured = dllUpdate d measured := rfl

/-! ## The discipline -/

/-- `struct reac_clock_disc`. -/
structure ClockDisc where
  role : Role
  dll : Dll
  src : ClockSource := .freerun
  state : ClockState := .unlocked
  inBand : ℕ := 0
  generation : UInt32 := 0
  holdovers : ℕ := 0
  switches : ℕ := 0
  quality : ClockSource → ClockQuality := fun _ => .ungraded
  minQuality : ClockQuality := .marginal
  srcQuality : ClockQuality := .ungraded

/-- `reac_clock_disc_init`. -/
def clockDiscInit (role : Role) (nominalNs : ℕ) : ClockDisc := { role, dll := { nominalNs } }

/-- `reac_clock_disc_set_quality`. -/
def clockDiscSetQuality (c : ClockDisc) (src : ClockSource) (q : ClockQuality) : ClockDisc :=
  { c with quality := Function.update c.quality src q }

/-- The reference the mask selects. -/
def ClockDisc.selects (c : ClockDisc) (avail : UInt32) : ClockSource :=
  clockSelectGraded c.role avail c.quality c.minQuality

/-- A new reference is acquired from the start: the band, the stability series and the lock are those of
the old one. -/
def ClockDisc.switch (c : ClockDisc) (src : ClockSource) : ClockDisc :=
  if src = c.src then c
  else
    { c with
      src, switches := c.switches + 1, inBand := 0, dll := dllStabilityReset c.dll
      state := if src = .freerun then c.state else .locking }

/-- No reference: the loop is left alone. -/
def ClockDisc.freeRun (c : ClockDisc) (before : ClockState) : ClockDisc :=
  if 0 < c.dll.updates then
    { c with
      holdovers := if before = .holdover then c.holdovers else c.holdovers + 1, state := .holdover }
  else { c with state := .unlocked }

/-- A sample was taken. -/
def ClockDisc.follow (c : ClockDisc) (dll : Dll) : ClockDisc :=
  let inBand := if dll.residEma < dllLockPpm then c.inBand + 1 else 0
  { c with dll, inBand, state := if dllLockUpdates ≤ inBand then .locked else .locking }

/-- No sample was taken. -/
def ClockDisc.wait (c : ClockDisc) : ClockDisc :=
  if c.state = .unlocked ∨ c.state = .holdover then { c with state := .locking } else c

/-- The measurement, if there is one, moves the loop and the state. -/
def ClockDisc.sample (c : ClockDisc) : Option ℚ → ClockDisc
  | none => c.wait
  | some measured =>
    let (dll, taken) := dllUpdate c.dll measured
    if taken then c.follow dll else { c with dll }.wait

/-- The quality in use, and the generation if anything reported has changed. -/
def ClockDisc.report (c before : ClockDisc) : ClockDisc :=
  let srcQuality :=
    if c.src = .freerun then .ungraded
    else clockQualityApply c.src (c.quality c.src) (dllStability c.dll)
  { c with
    srcQuality
    generation :=
      if c.src ≠ before.src ∨ c.state ≠ before.state ∨ srcQuality ≠ before.srcQuality then
        c.generation + 1
      else c.generation }

/-- `reac_clock_disc_update`; the measurement is there when `have_measurement` is set. -/
def clockDiscUpdate (c : ClockDisc) (avail : UInt32) (measured : Option ℚ) : ClockDisc :=
  let src := c.selects avail
  let switched := c.switch src
  if src = .freerun then (switched.freeRun c.state).report c else (switched.sample measured).report c

/-- `reac_clock_disc_period_ns`. -/
def clockDiscPeriodNs (c : ClockDisc) : ℕ :=
  if c.state = .unlocked then c.dll.nominalNs else dllPeriodNs c.dll

/-- The calls on a discipline. -/
inductive ClockInput where
  | setQuality (src : ClockSource) (q : ClockQuality)
  | update (avail : UInt32) (measured : Option ℚ)
  deriving DecidableEq

/-- One call. -/
def clockStep (c : ClockDisc) : ClockInput → ClockDisc
  | .setQuality src q => clockDiscSetQuality c src q
  | .update avail measured => clockDiscUpdate c avail measured

/-- A discipline under its calls. -/
def clockMachine : Machine ClockDisc ClockInput Unit := ⟨fun c i => (clockStep c i, ())⟩

@[simp] theorem clockMachine_step (c : ClockDisc) (i : ClockInput) :
    clockMachine.step c i = (clockStep c i, ()) := rfl

end Libreac
