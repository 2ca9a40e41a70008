import Libreac.HeadampTx
import Libreac.Machine
import Libreac.WordRing

/-!
# Who calls the head-amp table

The table of `reac_headamp_tx.c` as a machine over the calls it takes, and the command ring of
`reac_pacer.c` through which a control thread reaches it. The ring has one producer
(`reac_pacer_headamp_set`) and one consumer (`reac_pacer_headamp_drain`) on another thread; each of
their loads and stores is a step of its own here, and the steps of the two interleave freely. The
orders of the source's atomics make the cell visible before the index that publishes it.
-/

namespace Libreac

open Reactive (Machine)

/-! ## The table -/

/-- The calls of the table. -/
inductive TableCall where
  | set (ch param : ℕ) (value : UInt8)
  | armScene (base width : ℕ)
  | setResweep (frames : UInt32)
  | next

/-- What a call answers: whether a set was taken, or the record of a slot. -/
inductive TableAnswer where
  | done
  | taken (ok : Bool)
  | record (rec : Option (ℕ × ℕ × UInt8))

/-- One call. -/
def tableCall (t : HeadampTx) : TableCall → HeadampTx × TableAnswer
  | .set ch param value =>
    match headampTxSet t ch param value with
    | some t' => (t', .taken true)
    | none => (t, .taken false)
  | .armScene base width => (headampTxArmScene t base width, .done)
  | .setResweep frames => (headampTxSetResweep t frames, .done)
  | .next => ((headampTxNext t).1, .record (headampTxNext t).2)

/-- The table under its calls. -/
def tableMachine : Machine HeadampTx TableCall TableAnswer := ⟨tableCall⟩

@[simp] theorem tableMachine_step (t : HeadampTx) (c : TableCall) :
    tableMachine.step t c = tableCall t c := rfl

/-! ## The command ring -/

/-- A channel, a parameter and a value. -/
abbrev HeadampCmd := UInt8 × UInt8 × UInt8

/-- `reac_headamp_pack`. -/
def headampPack (cmd : HeadampCmd) : UInt32 :=
  cmd.1.toUInt32 <<< 16 ||| cmd.2.1.toUInt32 <<< 8 ||| cmd.2.2.toUInt32

/-- `reac_headamp_unpack`. -/
def headampUnpack (w : UInt32) : HeadampCmd :=
  ((w >>> 16 &&& 0xff).toUInt8, (w >>> 8 &&& 0xff).toUInt8, (w &&& 0xff).toUInt8)

/-- `REAC_HEADAMP_CMD_RING`, the number of cells. -/
def cmdRingCells : ℕ := 128

/-- Where the producer is in `reac_pacer_headamp_set`, with the head it has read. -/
inductive Producer where
  | idle
  | readTail (cmd : HeadampCmd) (h : UInt32)
  | writeCell (cmd : HeadampCmd) (h : UInt32)
  | writeHead (cmd : HeadampCmd) (h : UInt32)

/-- Where the consumer is in `reac_pacer_headamp_drain`, with its tail and the word it has read. -/
inductive Consumer where
  | idle
  | readHead (t : UInt32)
  | readCell (t : UInt32)
  | writeTail (t w : UInt32)
  | apply (t w : UInt32)

/-- The ring, the two threads and the table behind them. -/
structure CmdRing where
  ring : WordRing UInt32
  producer : Producer := .idle
  consumer : Consumer := .idle
  table : HeadampTx

/-- A call of the producer or of the consumer, or the next step of one under way. -/
inductive RingInput where
  | push (cmd : HeadampCmd)
  | produce
  | drain
  | consume

/-- What a step settles. -/
inductive RingOut where
  | none
  | accepted (cmd : HeadampCmd)
  | dropped (cmd : HeadampCmd)
  | applied (cmd : HeadampCmd)

/-- `reac_headamp_tx_set` on a command; a bad one is skipped. -/
def applyCmd (t : HeadampTx) (cmd : HeadampCmd) : HeadampTx :=
  (headampTxSet t cmd.1.toNat cmd.2.1.toNat cmd.2.2).getD t

/-- The next step of `reac_pacer_headamp_set`. -/
def produceStep (s : CmdRing) : CmdRing × RingOut :=
  match s.producer with
  | .idle => (s, .none)
  | .readTail cmd h =>
    if (cmdRingCells : ℕ) ≤ (h - s.ring.tail).toNat then ({ s with producer := .idle }, .dropped cmd)
    else ({ s with producer := .writeCell cmd h }, .none)
  | .writeCell cmd h =>
    ({ s with
      ring := { s.ring with
        cells := Function.update s.ring.cells (WordRing.slot cmdRingCells h) (headampPack cmd) }
      producer := .writeHead cmd h }, .none)
  | .writeHead cmd h =>
    ({ s with ring := { s.ring with head := h + 1 }, producer := .idle }, .accepted cmd)

/-- The next step of `reac_pacer_headamp_drain`. -/
def consumeStep (s : CmdRing) : CmdRing × RingOut :=
  match s.consumer with
  | .idle => (s, .none)
  | .readHead t =>
    if t = s.ring.head then ({ s with consumer := .idle }, .none)
    else ({ s with consumer := .readCell t }, .none)
  | .readCell t =>
    ({ s with consumer := .writeTail t (s.ring.cells (WordRing.slot cmdRingCells t)) }, .none)
  | .writeTail t w =>
    ({ s with ring := { s.ring with tail := t + 1 }, consumer := .apply (t + 1) w }, .none)
  | .apply t w =>
    ({ s with table := applyCmd s.table (headampUnpack w), consumer := .readHead t },
      .applied (headampUnpack w))

/-- One step. A thread that is busy does not start another call. -/
def ringStep (s : CmdRing) : RingInput → CmdRing × RingOut
  | .push cmd =>
    match s.producer with
    | .idle => ({ s with producer := .readTail cmd s.ring.head }, .none)
    | _ => (s, .none)
  | .produce => produceStep s
  | .drain =>
    match s.consumer with
    | .idle => ({ s with consumer := .readHead s.ring.tail }, .none)
    | _ => (s, .none)
  | .consume => consumeStep s

/-- The ring under its two threads. -/
def ringMachine : Machine CmdRing RingInput RingOut := ⟨ringStep⟩

@[simp] theorem ringMachine_step (s : CmdRing) (i : RingInput) : ringMachine.step s i = ringStep s i := rfl

/-- The ring as `reac_pacer_open` leaves it, in front of a table. -/
def ringOpen (t : HeadampTx) : CmdRing := { ring := { cells := fun _ => 0 }, table := t }

end Libreac
