import Libreac.Queue
import Libreac.Topo

/-!
# The interfaces of the host

`reac_ifscan.c`: which interfaces are listened on, and which of them are segments. The table follows
what is observed of the interfaces and queues requests for its caller, who opens and closes the sniffers
and the listeners by them. A name is its bytes in front of the NUL.
-/

namespace Libreac

open Reactive (Event Machine)

/-- `REAC_IFSCAN_MAX`. -/
def ifscanMax : ℕ := 16

/-- `REAC_IFSCAN_DOWN_HOLD_NS`. -/
def ifscanDownHoldNs : UInt64 := 3000000000

/-- `REAC_IFSCAN_RETRY_NS`. -/
def ifscanRetryNs : UInt64 := 5000000000

/-- `REAC_IFSCAN_EVENTS`. -/
def ifscanEvents : ℕ := 64

/-- `enum reac_ifscan_state` of an entry; `REAC_IFSCAN_ABSENT` is a free slot of the table. -/
inductive IfState where
  | down | linked | segment | hold
  deriving DecidableEq, Repr

/-- `enum reac_ifscan_verb`. -/
inductive IfVerb where
  | listen | unlisten | serve | drop | kept
  deriving DecidableEq, Repr

/-- `struct reac_ifscan_event`. -/
structure IfEvent where
  verb : IfVerb
  name : IfName
  deriving DecidableEq, Repr

/-- `struct reac_ifscan_entry` behind the name. -/
structure IfEntry where
  ifindex : ℤ
  state : IfState := .down
  holdUntilNs : UInt64 := 0
  retryAfterNs : UInt64 := 0
  flaps : ℕ := 0
  deriving DecidableEq

/-- `struct reac_ifscan`; one cell of the event ring stays empty, and `isOpen` says that it has a
handle. -/
structure IfScan where
  ifs : SlotTable IfName IfEntry ifscanMax := .empty
  ring : BoundedQueue IfEvent (ifscanEvents - 1) := .empty
  isOpen : Bool := false
  msgs : ℕ := 0
  overruns : ℕ := 0
  unbounded : ℕ := 0
  droppedEv : ℕ := 0

/-- `reac_ifscan_init`. -/
def ifscanInit : IfScan := {}

/-! ## The event ring -/

/-- `emit`. -/
def IfScan.emit (s : IfScan) (e : IfEvent) : IfScan :=
  { s with
    ring := s.ring.push e
    droppedEv := if s.ring.full then s.droppedEv + 1 else s.droppedEv }

/-- Events emitted one after the other. -/
def IfScan.emitAll (s : IfScan) (es : List IfEvent) : IfScan := es.foldl IfScan.emit s

/-- `reac_ifscan_next`. -/
def ifscanNext (s : IfScan) : IfScan × Option IfEvent :=
  match s.ring.pop with
  | none => (s, none)
  | some (e, ring) => ({ s with ring }, some e)

/-! ## The entries -/

/-- `find` and `reac_ifscan_find`. -/
def IfScan.find (s : IfScan) (name : IfName) : Option IfEntry := s.ifs.find name

/-- Write through the pointer `find` returns. -/
def IfScan.write (s : IfScan) (name : IfName) (e : Option IfEntry) : IfScan :=
  { s with ifs := s.ifs.alter name fun _ => e }

/-- What `leave` emits. -/
def IfState.leaves : IfState → List IfVerb
  | .linked => [.unlisten]
  | .segment | .hold => [.drop]
  | .down => []

/-- `leave`. -/
def IfScan.leave (s : IfScan) (name : IfName) (e : IfEntry) : IfScan :=
  (s.emitAll (e.state.leaves.map (IfEvent.mk · name))).write name none

/-- The switch of `reac_ifscan_observe`: the entry afterwards, and what is emitted. -/
def IfEntry.carrier (e : IfEntry) (lowerUp : Bool) (now : UInt64) : IfEntry × List IfVerb :=
  match e.state, lowerUp with
  | .down, true => ({ e with state := .linked, retryAfterNs := 0 }, [.listen])
  | .linked, false => ({ e with state := .down }, [.unlisten])
  | .segment, false => ({ e with state := .hold, holdUntilNs := now + ifscanDownHoldNs }, [])
  | .hold, true => ({ e with state := .segment, holdUntilNs := 0, flaps := e.flaps + 1 }, [.kept])
  | .down, false | .linked, true | .segment, true | .hold, false => (e, [])

/-- That switch on an entry of the table. -/
def IfScan.carrier (s : IfScan) (name : IfName) (e : IfEntry) (lowerUp : Bool) (now : UInt64) : IfScan :=
  (s.write name (some (e.carrier lowerUp now).1)).emitAll
    ((e.carrier lowerUp now).2.map (IfEvent.mk · name))

/-- The same name under a new index: gone, then new. -/
def IfScan.renumber (s : IfScan) (name : IfName) (ifindex : ℤ) : IfScan :=
  match s.find name with
  | none => s
  | some e => if e.ifindex ≠ ifindex then s.leave name e else s

/-- `reac_ifscan_observe` on an Ethernet interface, behind the re-enumeration. -/
def IfScan.track (s : IfScan) (name : IfName) (ifindex : ℤ) (lowerUp : Bool) (now : UInt64) : IfScan :=
  match h : s.find name with
  | some e => s.carrier name e lowerUp now
  | none =>
    if s.ifs.full then { s with unbounded := s.unbounded + 1 }
    else IfScan.carrier { s with ifs := s.ifs.insert name { ifindex } h } name { ifindex } lowerUp now

/-- `reac_ifscan_observe`. -/
def ifscanObserve (s : IfScan) (name : IfName) (ifindex : ℤ) (ether lowerUp : Bool) (now : UInt64) :
    IfScan :=
  if name = [] ∨ 16 ≤ name.length then s
  else if ether then (s.renumber name ifindex).track name ifindex lowerUp now
  else
    -- Not a segment candidate: if it once was, it leaves.
    match s.find name with
    | none => s
    | some e => s.leave name e

/-- `reac_ifscan_gone`. -/
def ifscanGone (s : IfScan) (name : IfName) (ifindex : ℤ) : IfScan :=
  if name = [] then s
  else
    match s.find name with
    | none => s
    | some e => if ifindex ≠ 0 ∧ e.ifindex ≠ ifindex then s else s.leave name e

/-- `reac_ifscan_heard`. -/
def ifscanHeard (s : IfScan) (name : IfName) (now : UInt64) : IfScan :=
  match s.find name with
  | none => s
  | some e =>
    if e.state ≠ .linked ∨ e.retryAfterNs ≠ 0 ∧ now < e.retryAfterNs then s
    else (s.write name (some { e with state := .segment, retryAfterNs := 0 })).emit ⟨.serve, name⟩

/-- `reac_ifscan_serve_failed`. -/
def ifscanServeFailed (s : IfScan) (name : IfName) (now : UInt64) : IfScan :=
  match s.find name with
  | none => s
  | some e =>
    let e' := { e with holdUntilNs := 0, retryAfterNs := now + ifscanRetryNs }
    match e.state with
    | .segment => (s.write name (some { e' with state := .linked })).emit ⟨.listen, name⟩
    | .hold => s.write name (some { e' with state := .down })
    | .down | .linked => s

/-- The hold of an entry is over. -/
def IfEntry.due (now : UInt64) (e : IfEntry) : Bool := e.state = .hold ∧ e.holdUntilNs ≤ now

/-- `reac_ifscan_tick` on one entry. -/
def IfEntry.tick (now : UInt64) (e : IfEntry) : IfEntry :=
  if e.due now then { e with state := .down, holdUntilNs := 0 } else e

/-- `reac_ifscan_tick`: the drops are emitted in slot order. -/
def ifscanTick (s : IfScan) (now : UInt64) : IfScan :=
  IfScan.emitAll { s with ifs := s.ifs.mapAll (IfEntry.tick now) }
    ((s.ifs.entries.filter fun p => p.2.due now).map fun p => ⟨.drop, p.1⟩)

/-! ## The caller -/

/-- What the caller has open on an interface. -/
inductive IfHeld where
  | nothing | listening | serving
  deriving DecidableEq, Repr

/-- What a delivered event makes of it. -/
def IfVerb.take (h : IfHeld) : IfVerb → IfHeld
  | .listen => .listening
  | .unlisten | .drop => .nothing
  | .serve => .serving
  | .kept => h

/-- The listener could not be opened. -/
def IfHeld.refuse : IfHeld → IfHeld
  | .serving => .nothing
  | .listening => .listening
  | .nothing => .nothing

/-- What is to be open for an entry. -/
def IfState.held : IfState → IfHeld
  | .down => .nothing
  | .linked => .listening
  | .segment | .hold => .serving

/-- What is to be open for an interface, tracked or not. -/
def heldFor (e : Option IfEntry) : IfHeld := e.elim .nothing fun e => e.state.held

/-- The table and what its caller has open by the events taken so far. -/
structure IfDaemon where
  scan : IfScan := ifscanInit
  held : IfName → IfHeld := fun _ => .nothing

/-- The calls of the owner; `next` may answer the SERVE it takes with `reac_ifscan_serve_failed`. -/
inductive IfInput where
  | observe (name : IfName) (ifindex : ℤ) (ether lowerUp : Bool) (now : UInt64)
  | gone (name : IfName) (ifindex : ℤ) (now : UInt64)
  | heard (name : IfName) (now : UInt64)
  | tick (now : UInt64)
  | serveFailed (name : IfName) (now : UInt64)
  | next (refusal : Option UInt64)
  deriving DecidableEq

/-- `reac_ifscan_serve_failed` and the caller who calls it. -/
def IfDaemon.serveFailed (d : IfDaemon) (name : IfName) (now : UInt64) : IfDaemon where
  scan := ifscanServeFailed d.scan name now
  held := Function.update d.held name (d.held name).refuse

/-- The caller takes the next event, and answers a SERVE that it cannot do. -/
def IfDaemon.next (d : IfDaemon) (refusal : Option UInt64) : IfDaemon × Option IfEvent :=
  let (scan, e) := ifscanNext d.scan
  match e with
  | none => (d, none)
  | some e =>
    let d : IfDaemon := { scan, held := Function.update d.held e.name (e.verb.take (d.held e.name)) }
    match e.verb, refusal with
    | .serve, some now => (d.serveFailed e.name now, some e)
    | _, _ => (d, some e)

/-- One call, with the event it takes. -/
def ifStep (d : IfDaemon) : IfInput → IfDaemon × Option IfEvent
  | .observe name ifindex ether lowerUp now =>
    ({ d with scan := ifscanObserve d.scan name ifindex ether lowerUp now }, none)
  | .gone name ifindex _ => ({ d with scan := ifscanGone d.scan name ifindex }, none)
  | .heard name now => ({ d with scan := ifscanHeard d.scan name now }, none)
  | .tick now => ({ d with scan := ifscanTick d.scan now }, none)
  | .serveFailed name now => (d.serveFailed name now, none)
  | .next refusal => d.next refusal

/-- A step of the table and its caller. -/
abbrev IfLogEntry := Event IfDaemon IfInput (Option IfEvent)

/-- The table and its caller. -/
def ifMachine : Machine IfDaemon IfInput (Option IfEvent) := ⟨ifStep⟩

@[simp] theorem ifMachine_step (d : IfDaemon) (i : IfInput) : ifMachine.step d i = ifStep d i := rfl

end Libreac
