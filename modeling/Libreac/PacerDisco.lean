import Libreac.Disco
import Libreac.Pacer

/-!
# The pacer's discovery

The discovery pass of `reac_pacer_rx_ingest` and its other end, the `REAC_PEV_SIGHTING` arm of the
drain. A sighting the gate passes travels over the event ring as bytes; the main thread decides
whether the peer is ours and folds it into the table. Here the ring is drained behind every frame, so
it never holds more than one sighting. Nothing of this feeds back into the pacer.
-/

namespace Libreac

open Reactive (Machine)

/-- `HW_FAMILY`: the hardware blocks of the S-0808, the S-1608 and the S-4000S. -/
def hwFamily : List (List UInt8 × UInt8) :=
  [([0x00, 0x00, 0x00, 0x01, 0x00, 0x00, 0x00, 0x00], 1),
    ([0x00, 0x00, 0x00, 0x02, 0x00, 0x03, 0x00, 0x02], 2),
    ([0x00, 0x00, 0x00, 0x02, 0x00, 0x01, 0x00, 0x02], 3)]

/-- `reac_box_family_of`. -/
def boxFamilyOf (id : Identity) : UInt8 :=
  if !id.hasReacVersion then 0 else (hwFamily.lookup id.reacVersionRaw).getD 0

/-- The pacer with its discovery: the peer lock and the gate of the pacer thread, the table of the
main thread, and the monotonic clock. -/
structure Listener where
  pacer : Pacer
  lock : PeerLock := {}
  gate : DiscoGate := Roster.empty
  table : DiscoTable := {}
  clock : ℕ := 0

/-- The sighting as it crosses the ring: its geometry is a byte, and it names no family. -/
def ringSighting (s : Sighting) : Sighting :=
  { s with
    family := 0
    channels := if reacMaxChannels < s.channels then reacMaxChannels else s.channels }

/-- The peer is the box the master is established with. -/
def Pacer.owns (p : Pacer) (mac : Mac) : Bool :=
  p.master.state = .established ∧ p.master.boxMac = mac

/-- What the main thread adds for our own peer: its declaration, if the frame has none, and the family
its identity page names. -/
def ownSighting (p : Pacer) (s : Sighting) : Sighting :=
  if p.owns s.mac then
    { s with
      decl := s.decl.or
        (if 0 < p.declaredIn + p.declaredOut then
          some (p.declaredIn.toUInt8, p.declaredOut.toUInt8) else none)
      family := boxFamilyOf p.rxIdentity }
  else s

/-- The drain of one sighting. -/
def drainSighting (p : Pacer) (t : DiscoTable) (s : Sighting) (now : ℕ) : DiscoTable :=
  (tableObserve t (ownSighting p s) (p.owns s.mac) now).1

/-- What can happen to the listener: a frame, `elapsed` after the last event and `lag` before its
sighting is stamped, an aging pass, or anything else that happens to the pacer. -/
inductive ListenerInput where
  | frame (bytes : List UInt8) (elapsed lag : ℕ)
  | age (elapsed : ℕ)
  | other (i : PacerInput)

/-- The sighting of a frame on this segment. -/
def Listener.sights (l : Listener) (bytes : List UInt8) : PeerLock × Option Sighting :=
  discoClassifyOnSegment l.lock (cleanFrame bytes) l.pacer.src

/-- A frame: the discovery pass, the rest of the receive path, and the drain behind it. -/
def listenFrame (env : Env) (l : Listener) (bytes : List UInt8) (now lag : ℕ) : Listener :=
  let (lock, s) := l.sights bytes
  let pacer := (rxIngest env l.pacer bytes).1
  match s with
  | none => { l with pacer, lock, clock := now + lag }
  | some s =>
    let (gate, pushed) := gateShouldPush l.gate s now
    { pacer, lock, gate, clock := now + lag
      table := if pushed then drainSighting pacer l.table (ringSighting s) (now + lag) else l.table }

/-- One step of the listener. -/
def listenerStep (env : Env) (l : Listener) : ListenerInput → Listener × Unit
  | .frame bytes elapsed lag => (listenFrame env l bytes (l.clock + elapsed) lag, ())
  | .age elapsed =>
    ({ l with table := tableAge l.table (l.clock + elapsed), clock := l.clock + elapsed }, ())
  -- A frame comes in through the discovery only.
  | .other (.frame _) => (l, ())
  | .other i => ({ l with pacer := (pacerStep env l.pacer i).1 }, ())

/-- The listener. -/
def listenerMachine (env : Env) : Machine Listener ListenerInput Unit := ⟨listenerStep env⟩

@[simp] theorem listenerMachine_step (env : Env) (l : Listener) (i : ListenerInput) :
    (listenerMachine env).step l i = listenerStep env l i := rfl

end Libreac
