import Libreac.Machine

/-!
# The licence to drive a silent wire

`reac_knock.c`: a master fills every audio slot, so a wire without one frame across the listening
window has no master on it. A frame cancels the observation, which opens again at that frame.
-/

namespace Libreac

open Reactive

/-- `REAC_KNOCK_LISTEN_NS`. -/
def knockListenNs : UInt64 := 500 * 1000000

/-- `enum reac_knock_state`. -/
inductive KnockState where
  | listening | proven | cancelled
  deriving DecidableEq, Repr

/-- `enum reac_knock_act`. -/
inductive KnockAct where
  | none | drive
  deriving DecidableEq, Repr

/-- `struct reac_knock`. -/
structure Knock where
  state : KnockState := .listening
  openedNs : UInt64 := 0
  dueNs : UInt64 := 0
  heardNs : UInt64 := 0
  granted : Bool := false
  deriving DecidableEq, Repr

/-- `reac_knock_init`. -/
def knockInit (now : UInt64) : Knock :=
  { state := .listening, openedNs := now, dueNs := now + knockListenNs }

/-- `reac_knock_heard`. -/
def knockHeard (k : Knock) (now : UInt64) : Knock :=
  let k := { k with heardNs := now }
  if k.state = .listening then { k with state := .cancelled } else k

/-- The end of `reac_knock_step`, behind the re-opening. -/
def knockClose (k : Knock) (now : UInt64) : Knock × KnockAct :=
  if k.state ≠ .listening then (k, .none)
  else if now < k.dueNs then (k, .none)
  else ({ k with state := .proven, granted := true }, .drive)

/-- `reac_knock_step`. -/
def knockStep (k : Knock) (now : UInt64) : Knock × KnockAct :=
  if k.state = .cancelled then
    if now ≤ k.heardNs then (k, .none)
    else if now - k.heardNs < knockListenNs then (k, .none)
    else knockClose { k with state := .listening, dueNs := k.heardNs + knockListenNs } now
  else knockClose k now

/-- A call on the wire's observation, with the clock it is made at. -/
inductive KnockInput where
  | heard (now : UInt64)
  | step (now : UInt64)
  deriving DecidableEq, Repr

/-- The clock of a call. -/
def KnockInput.now : KnockInput → UInt64
  | .heard now | .step now => now

/-- The calls after `reac_knock_init`. -/
def knockMachine : Machine Knock KnockInput KnockAct where
  step k
    | .heard now => (knockHeard k now, .none)
    | .step now => knockStep k now

end Libreac
