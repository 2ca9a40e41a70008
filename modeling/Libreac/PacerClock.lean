import Libreac.Clock
import Libreac.Pacer
import Libreac.Queue

/-!
# The pacer's clock

The clock discipline inside `reac_pacer.c`: the publishers leave their samples, the slot clock takes the
discipline up every so many slots, and whatever it changes is pushed onto the event ring for the log. An
instant of `CLOCK_MONOTONIC` is a 64-bit count of nanoseconds; a label is its bytes in front of the NUL.
-/

namespace Libreac

open Reactive (Event Machine)

/-- `REAC_CLOCK_TICK_SLOTS`. -/
def clockTickSlots : ℕ := 1024

/-- `REAC_CLOCK_STALE_NS`. -/
def clockStaleNs : UInt64 := 2000000000

/-- `REAC_CLOCK_LABEL_MAX`. -/
def clockLabelMax : ℕ := 28

/-- `REAC_PACER_EVRING`. -/
def pacerEvRing : ℕ := 128

/-- `REAC_PEV_CAUSE_RATE_CHANGE`. -/
def causeRateChange : UInt8 := 0xfe

/-- The `enum reac_clock_source` with the value, if one has it. -/
def clockSourceOf (src : UInt32) : Option ClockSource :=
  [ClockSource.freerun, .box, .graph, .phc, .wire][src.toNat]?

/-- The enumerator's value. -/
def ClockSource.code : ClockSource → UInt8
  | .freerun => 0
  | .box => 1
  | .graph => 2
  | .phc => 3
  | .wire => 4

/-- The enumerator's value. -/
def ClockState.code : ClockState → UInt8
  | .unlocked => 0
  | .locking => 1
  | .locked => 2
  | .holdover => 3

/-- The enumerator's value. -/
def MasterState.code : MasterState → UInt8
  | .idle => 0
  | .probing => 1
  | .granting => 2
  | .established => 3

/-! ## The event ring -/

/-- The kinds of `enum reac_pacer_evkind` that the clock and a rate change push. -/
inductive PacerEvKind where
  | state | clock
  deriving DecidableEq, Repr

/-- `struct reac_pacer_event`, without the instant of the push. -/
structure PacerLogEvent where
  kind : PacerEvKind
  a : UInt8
  b : UInt8
  src : Mac := noMac
  blk : List UInt8
  deriving DecidableEq

/-- The state as the drain unpacks it. -/
def PacerLogEvent.clockState (ev : PacerLogEvent) : UInt8 := ev.b &&& 0x0f

/-- The quality as the drain unpacks it. -/
def PacerLogEvent.clockQuality (ev : PacerLogEvent) : UInt8 := ev.b >>> 4

/-- The part of `struct reac_pacer` that the clock discipline lives in. -/
structure ClockedPacer where
  pacer : Pacer
  /-- `clock_follow`. -/
  follow : Bool
  /-- The bits of `clock_present`. -/
  present : ClockSource → Bool := fun _ => false
  ppmMilli : ClockSource → ℤ := fun _ => 0
  stampNs : ClockSource → UInt64 := fun _ => 0
  label : ClockSource → List UInt8 := fun _ => []
  quality : ClockSource → ClockQuality := fun _ => .unusable
  /-- `clock_pace`. -/
  pace : ClockSource × ClockState := (.freerun, .unlocked)
  clock : ClockDisc
  slotPeriodNs : ℤ
  slots : ℕ := 0
  genSeen : UInt32 := 0
  stampSeen : ClockSource → UInt64 := fun _ => 0
  reestabCause : UInt8 := 0
  evring : BoundedQueue PacerLogEvent pacerEvRing := .empty
  evDrops : ℕ := 0

/-- `reac_pacer_open`. -/
def clockedOpen (env : Env) (cfg : PacerCfg) (follow : Bool) : ClockedPacer :=
  let pacer := pacerOpen env cfg
  { pacer, follow, slotPeriodNs := pacer.periodNs
    clock := clockDiscInit .master pacer.periodNs.toNat }

/-- `pev_push`: the event that went into the ring. A full ring drops it. -/
def pevPush (p : ClockedPacer) (ev : PacerLogEvent) : ClockedPacer × Option PacerLogEvent :=
  if p.evring.full then ({ p with evDrops := p.evDrops + 1 }, none)
  else ({ p with evring := p.evring.push ev }, some ev)

/-- `reac_pacer_log_drain`. -/
def logDrain (p : ClockedPacer) : ClockedPacer := { p with evring := .empty }

/-! ## The publishers -/

/-- `reac_clock_label_set`: without a name the label stays. -/
def clockLabelSet (label : List UInt8) : Option (List UInt8) → List UInt8
  | none => label
  | some name => name.take (clockLabelMax - 1)

/-- `reac_pacer_clock_publish`. -/
def clockPublish (p : ClockedPacer) (src : UInt32) (present : Bool) (ppmMilli : ℤ)
    (label : Option (List UInt8)) (quality : ClockQuality) (now : UInt64) : ClockedPacer :=
  match clockSourceOf src with
  | none | some .freerun => p
  | some s =>
    if present then
      { p with
        label := Function.update p.label s (clockLabelSet (p.label s) label)
        quality := Function.update p.quality s quality
        ppmMilli := Function.update p.ppmMilli s ppmMilli
        stampNs := Function.update p.stampNs s now
        present := Function.update p.present s true }
    else { p with present := Function.update p.present s false }

/-! ## The slot clock -/

/-- The references in the order of the loop of `reac_pacer_clock_tick`. -/
def clockReferences : List ClockSource := [.box, .graph, .phc, .wire]

/-- The publisher says that the reference is there, and has not been silent for too long. -/
def ClockedPacer.fresh (p : ClockedPacer) (now : UInt64) (s : ClockSource) : Bool :=
  p.present s && p.stampNs s != 0 && now - p.stampNs s < clockStaleNs

/-- The mask of the references that are available. -/
def ClockedPacer.avail (p : ClockedPacer) (now : UInt64) : UInt32 :=
  clockReferences.foldl (fun avail s => if p.fresh now s then avail ||| s.bit else avail) 0

/-- The discipline with the grades its publishers give. -/
def ClockedPacer.graded (p : ClockedPacer) : ClockDisc :=
  clockReferences.foldl
    (fun c s => if p.present s then clockDiscSetQuality c s (p.quality s) else c) p.clock

/-- The reference whose sample is looked for. -/
def ClockedPacer.sel (p : ClockedPacer) (now : UInt64) : ClockSource :=
  p.graded.selects (p.avail now)

/-- Its sample, if it is a new one. -/
def ClockedPacer.sample (p : ClockedPacer) (now : UInt64) : Option ℚ :=
  let sel := p.sel now
  if sel ≠ .freerun ∧ p.stampNs sel ≠ p.stampSeen sel then some ((p.ppmMilli sel : ℚ) / 1000) else none

/-- The applied correction in thousandths of a ppm, cut to an integer. -/
def Dll.appliedMilli (d : Dll) : ℤ := (d.appliedPpm * 1000).num.tdiv (d.appliedPpm * 1000).den

/-- The event of a change: the correction, the name of the device, and the state with the quality. -/
def clockEvent (p : ClockedPacer) : PacerLogEvent :=
  let applied := UInt32.ofInt p.clock.dll.appliedMilli
  let label := if p.clock.src ≠ .freerun then p.label p.clock.src else []
  { kind := .clock, a := p.clock.src.code
    b := p.clock.state.code ||| (UInt8.ofNat p.clock.srcQuality.rank <<< 4)
    blk := [applied.toUInt8, (applied >>> 8).toUInt8, (applied >>> 16).toUInt8, (applied >>> 24).toUInt8]
      ++ label ++ List.replicate (clockLabelMax - label.length) 0 }

/-- The discipline is taken up. -/
def clockFeed (p : ClockedPacer) (now : UInt64) : ClockedPacer :=
  let sample := p.sample now
  { p with
    clock := clockDiscUpdate p.graded (p.avail now) sample
    stampSeen :=
      if sample.isSome then Function.update p.stampSeen (p.sel now) (p.stampNs (p.sel now))
      else p.stampSeen }

/-- A new generation of it is reported. -/
def clockReport (p : ClockedPacer) : ClockedPacer × Option PacerLogEvent :=
  if p.clock.generation ≠ p.genSeen then
    pevPush { p with genSeen := p.clock.generation } (clockEvent p)
  else (p, none)

/-- The evaluation of `reac_pacer_clock_tick`. -/
def clockEvaluate (p : ClockedPacer) (now : UInt64) : ClockedPacer × Option PacerLogEvent :=
  let (p, pushed) := clockReport (clockFeed p now)
  ({ p with pace := (p.clock.src, p.clock.state), slotPeriodNs := clockDiscPeriodNs p.clock }, pushed)

/-- The next call of `reac_pacer_clock_tick` takes the discipline up. -/
def ClockedPacer.evaluates (p : ClockedPacer) : Bool := p.follow && clockTickSlots ≤ p.slots + 1

/-- `reac_pacer_clock_tick`: the period of the slot comes last. -/
def clockTick (p : ClockedPacer) (now : UInt64) : ClockedPacer × Option PacerLogEvent × ℤ :=
  if !p.follow then (p, none, p.pacer.periodNs)
  else if p.slots + 1 < clockTickSlots then ({ p with slots := p.slots + 1 }, none, p.slotPeriodNs)
  else
    let (p, pushed) := clockEvaluate { p with slots := 0 } now
    (p, pushed, p.slotPeriodNs)

/-- `reac_pacer_apply_rate`: the discipline starts over at the new period. -/
def applyRateClock (env : Env) (p : ClockedPacer) (hz : ℤ) :
    ClockedPacer × Option PacerLogEvent × List SessionReport :=
  let m := p.pacer.master
  let (pacer, reports) := applyRate env p.pacer hz
  let cause := if p.reestabCause = 0 then causeRateChange else p.reestabCause
  let (p, pushed) := pevPush
    { p with
      pacer, slotPeriodNs := pacer.periodNs, reestabCause := 0
      clock := clockDiscInit .master pacer.periodNs.toNat }
    { kind := .state, a := m.state.code, b := MasterState.idle.code, src := m.boxMac
      blk := cause :: List.replicate 31 0 }
  (p, pushed, reports)

/-! ## The clock as a machine -/

/-- A call on the pacer's clock. -/
inductive PacerClockInput where
  | publish (src : UInt32) (present : Bool) (ppmMilli : ℤ) (label : Option (List UInt8))
      (quality : ClockQuality) (now : UInt64)
  | tick (now : UInt64)
  | applyRate (hz : ℤ)
  | logDrain
  deriving DecidableEq

/-- What a call shows: the event it pushed, the period of a slot, the sessions it ended. -/
structure PacerClockOut where
  pushed : Option PacerLogEvent := none
  periodNs : Option ℤ := none
  reports : List SessionReport := []

/-- One call. -/
def pacerClockStep (env : Env) (p : ClockedPacer) : PacerClockInput → ClockedPacer × PacerClockOut
  | .publish src present ppmMilli label quality now =>
    (clockPublish p src present ppmMilli label quality now, {})
  | .tick now =>
    let (p, pushed, periodNs) := clockTick p now
    (p, { pushed, periodNs := some periodNs })
  | .applyRate hz =>
    let (p, pushed, reports) := applyRateClock env p hz
    (p, { pushed, reports })
  | .logDrain => (logDrain p, {})

/-- The pacer's clock under its calls. -/
def pacerClockMachine (env : Env) : Machine ClockedPacer PacerClockInput PacerClockOut :=
  ⟨pacerClockStep env⟩

/-- One call of a run. -/
abbrev PacerClockEvent := Event ClockedPacer PacerClockInput PacerClockOut

end Libreac
