import Libreac.Arbitration
import Libreac.Machine

/-!
# Which end of the pairing we take

`reac_hunt.c`: the role of a segment nobody configured. The hunt accumulates the sightings of one wire
in a discovery table, asks the arbitration who drives it, and turns the answer into a verdict. The
newest foreign master counts once it has streamed; until then it is waited for while it is heard and
ignored once it is quiet. A wire without a master is taken when it was proven silent, or when its
window is over and a box is on it. Times are nanoseconds below `2 ^ 64`.
-/

namespace Libreac

open Reactive (Machine)

/-- `enum reac_role`. -/
inductive Role where
  | master | slave
  deriving DecidableEq, Repr

/-- `enum reac_hunt_verdict`. -/
inductive HuntVerdict where
  | hunting | master | slave | refused
  deriving DecidableEq, Repr

/-- `enum rival_evidence`. -/
inductive RivalEvidence where
  | quiet | wait | streams
  deriving DecidableEq, Repr

/-- `REAC_HUNT_RIVAL_FRAMES`. -/
def huntRivalFrames : ℕ := 8

/-- `REAC_HUNT_RIVAL_SPAN_NS`. -/
def huntRivalSpanNs : ℕ := 20000000

/-- `REAC_HUNT_RIVAL_QUIET_NS`. -/
def huntRivalQuietNs : ℕ := 100000000

/-- `REAC_HUNT_WINDOW_NS`: three announce periods of a second. -/
def huntWindowNs : ℕ := 3 * 1000 * 1000000

/-- `struct reac_hunt`; `pin` is there when `pinned` is set. -/
structure Hunt where
  table : DiscoTable := {}
  lock : PeerLock := {}
  ourMac : Mac
  silenceProven : Bool := false
  opened : ℕ
  pin : Option Role := none
  verdict : HuntVerdict := .hunting
  arb : Arbitration := {}

/-- `reac_hunt_init`. -/
def huntInit (ourMac : Mac) (now : ℕ) : Hunt := { ourMac, opened := now }

/-- `reac_hunt_pin`. -/
def huntPin (h : Hunt) (role : Role) : Hunt := { h with pin := some role }

/-- `reac_hunt_silence_proven`. -/
def huntSilenceProven (h : Hunt) : Hunt := { h with silenceProven := true }

/-! ## Hearing -/

/-- The sighting as it is answered: what the table holds of the peer, not what the frame said. -/
def settledSighting (t : DiscoTable) (s : Sighting) : Sighting :=
  match t.peers.find s.mac with
  | none => s
  | some e =>
    { s with
      role := e.role, decl := e.decl, family := e.family, announcedSlots := e.announcedSlots
      channels := e.channels }

/-- The sighting of a frame on this wire, with the capture's residue stripped. -/
def Hunt.sights (h : Hunt) (bytes : List UInt8) : PeerLock × Option Sighting :=
  discoClassifyOnSegment h.lock (cleanFrame bytes) h.ourMac

/-- `reac_hunt_observe`: whether the table changed and the settled sighting, if the frame is evidence
of anything. -/
def huntObserve (h : Hunt) (bytes : List UInt8) (now : ℕ) : Hunt × Option (Bool × Sighting) :=
  let (lock, s) := h.sights bytes
  match s with
  | none => ({ h with lock }, none)
  | some s =>
    let (table, changed) := tableObserve h.table s false now
    -- The window runs from the first sighting.
    ({ h with lock, table, opened := if h.table.peers.entries.isEmpty then now else h.opened },
      some (changed, settledSighting table s))

/-! ## Deciding -/

/-- `box_present`. -/
def boxPresent (t : DiscoTable) (now : ℕ) : Bool :=
  t.peers.entries.any fun e =>
    e.stale now = false ∧ (e.role = .box ∨ e.role = .unknown ∧ senderKind e now 0 = .box)

/-- `desk_geometry_live`. -/
def deskGeometryLive (t : DiscoTable) (ourMac : Mac) (now : ℕ) : Bool :=
  t.peers.entries.any fun e =>
    e.stale now = false ∧ e.mac ≠ ourMac ∧ e.role = .unknown ∧ 0 < e.channels ∧
      senderKind e now 0 = .unknown

/-- Heard often enough over a long enough span to be streaming. -/
def DiscoEntry.streamed (e : DiscoEntry) : Bool :=
  huntRivalFrames ≤ e.frames ∧ e.firstSeen ≤ e.lastSeen ∧ huntRivalSpanNs ≤ e.lastSeen - e.firstSeen

/-- What a peer has shown of itself. -/
def DiscoEntry.evidence (e : DiscoEntry) (now : ℕ) : RivalEvidence :=
  if e.streamed then .streams
  else if e.lastSeen ≤ now ∧ now - e.lastSeen ≤ huntRivalQuietNs then .wait
  else .quiet

/-- `rival_evidence`, of the rival the arbitration named. -/
def rivalEvidence (h : Hunt) (now : ℕ) : RivalEvidence :=
  match h.arb.mac with
  | none => .quiet
  | some mac =>
    match h.table.peers.find mac with
    | none => .quiet
    | some e => e.evidence now

/-- A difference of two `uint64_t` times. -/
def elapsedNs (now since : ℕ) : ℕ := (now + 18446744073709551616 - since) % 18446744073709551616

/-- `decide` on a wire without a pin, once no rival holds it. -/
def decideVacant (h : Hunt) (now : ℕ) : HuntVerdict :=
  if deskGeometryLive h.table h.ourMac now then .hunting
  else if h.silenceProven then .master
  else if elapsedNs now h.opened < huntWindowNs then .hunting
  else if boxPresent h.table now then .master
  else .hunting

/-- `decide` on a pinned wire. -/
def decidePinned (h : Hunt) (pin : Role) (now : ℕ) : HuntVerdict :=
  let answer := if pin = .slave then HuntVerdict.slave else .master
  if pin = .master ∧ h.arb.state = .foreign ∧ h.arb.rival = .box then
    match rivalEvidence h now with
    | .streams => .slave
    | .wait => h.verdict
    | .quiet => answer
  else answer

/-- `decide`. -/
def huntDecide (h : Hunt) (now : ℕ) : HuntVerdict :=
  match h.pin with
  | some pin => decidePinned h pin now
  | none =>
    if h.arb.state = .foreign then
      if h.arb.rival = .pending then h.verdict
      else
        match rivalEvidence h now with
        | .wait => h.verdict
        | .streams => if h.arb.rival = .unknown then .refused else .slave
        | .quiet => decideVacant h now
    else decideVacant h now

/-- The table aged and the aggregate taken from it, before the verdict. Our own state machine is idle
and our pace undisciplined: nothing runs before the hunt has decided. -/
def Hunt.arbitrated (h : Hunt) (now : ℕ) : Hunt :=
  { h with
    table := tableAge h.table now
    arb := arbitrate (tableAge h.table now) h.ourMac .idle .freeRun now }

/-- `reac_hunt_step`: whether the verdict changed. -/
def huntStep (h : Hunt) (now : ℕ) : Hunt × Bool :=
  let v := huntDecide (h.arbitrated now) now
  ({ h.arbitrated now with verdict := v }, v != h.verdict)

/-! ## Runs -/

/-- What can happen to a hunt. -/
inductive HuntInput where
  | observe (bytes : List UInt8) (now : ℕ)
  | step (now : ℕ)
  | pin (role : Role)
  | silenceProven
  deriving DecidableEq

/-- What it answers. -/
inductive HuntOut where
  | observed (answer : Option (Bool × Sighting))
  | stepped (changed : Bool)
  | done
  deriving DecidableEq

/-- One call. -/
def huntCall (h : Hunt) : HuntInput → Hunt × HuntOut
  | .observe bytes now => ((huntObserve h bytes now).1, .observed (huntObserve h bytes now).2)
  | .step now => ((huntStep h now).1, .stepped (huntStep h now).2)
  | .pin role => (huntPin h role, .done)
  | .silenceProven => (huntSilenceProven h, .done)

/-- The hunt. -/
def huntMachine : Machine Hunt HuntInput HuntOut := ⟨huntCall⟩

@[simp] theorem huntMachine_step (h : Hunt) (i : HuntInput) : huntMachine.step h i = huntCall h i := rfl

end Libreac
