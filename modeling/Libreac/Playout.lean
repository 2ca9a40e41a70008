import Libreac.AudioRing
import Libreac.Braid
import Libreac.RxLoop

/-!
# From the wire to the audio ring

`feed_frame` of `reac_rx.c` decodes a followed frame into the ring, and the thread that plays reads the
ring and trims it. A float is outside: the conversion of a 24-bit sample is a parameter. The two threads
meet in the ring alone, so a run is any order of frames, session calls, reads and trims.
-/

namespace Libreac

open Reactive (Event Machine)

/-! ## The modes -/

/-- `REAC_MODE_44K1`. -/
def reacMode44k1 : ReacMode := { sampleRate := 44100, nChannels := 40, samplesPerPkt := 12 }

/-- `REAC_MODE_96K`. -/
def reacMode96k : ReacMode := { sampleRate := 96000, nChannels := 40, samplesPerPkt := 12 }

/-- `reac_mode_for`. -/
def reacModeFor (sampleRate : ℤ) : ReacMode :=
  if sampleRate = 96000 then reacMode96k
  else if sampleRate = 44100 then reacMode44k1
  else reacMode48k

/-! ## `feed_frame` -/

/-- Sample `i` of a planar output. -/
def s24At (s24 : List UInt8) (i : ℕ) : S24 := Vector.ofFn fun k => s24.getD (i * 3 + k) 0

/-- The decoder of the stream: the channels of the frame, its planar bytes and the samples of each. -/
def feedDecode (accept : RxAccept) (mode : ReacMode) (frame : List UInt8) : ℤ × Option (List UInt8 × ℤ) :=
  match accept with
  | .upstream => (upstreamChannels frame.length, upstreamDecode frame)
  | .downstream => (mode.nChannels, reacDecode frame mode)

/-- What `feed_frame` writes into the ring: sizes are clipped to those of its buffers. -/
def feedFrame {α : Type} (conv : S24 → α) (accept : RxAccept) (mode : ReacMode) (frame : List UInt8) :
    Option (CallerBlock α) :=
  match feedDecode accept mode frame with
  | (_, none) => none
  | (nch, some (s24, ns)) =>
    some
      { planar := fun i => conv (s24At s24 i)
        n := UInt32.ofNat (min ns frameSamples).toNat
        channels := UInt32.ofNat (min nch reacMaxChannels).toNat }

/-! ## The receiver and its ring -/

/-- The receiver and the ring it fills. -/
structure Playout (α : Type) where
  loop : RxLoop
  ring : AudioRing α

/-- What happens to the two: something reaches the receiver, or the ring is played or trimmed. -/
inductive PlayoutInput where
  | rx (i : RxLoopInput)
  | read (channels n : UInt32)
  | trim (keep : UInt32)

variable (α : Type) in
/-- What became of the input, and the call it made on the ring. -/
structure PlayoutOut where
  rx : RxOut := .ignored
  call : Option (AudioRingInput α × AudioRingOut α) := none

section Machine

variable {α : Type} [Zero α]

/-- A call on the ring. -/
def Playout.onRing (s : Playout α) (rx : RxOut) (i : AudioRingInput α) : Playout α × PlayoutOut α :=
  let (ring, out) := audioRingStep s.ring i
  ({ s with ring }, { rx, call := some (i, out) })

/-- One input. -/
def playoutStep (conv : S24 → α) (mode : ReacMode) (s : Playout α) :
    PlayoutInput → Playout α × PlayoutOut α
  | .rx i =>
    let (loop, out) := rxLoopStep s.loop i
    let s := { s with loop }
    match out with
    | .decoded frame =>
      match feedFrame conv loop.rx.accept mode frame with
      | some block => s.onRing out (.write block)
      | none => (s, { rx := out })
    | _ => (s, { rx := out })
  | .read channels n => s.onRing .ignored (.read channels n)
  | .trim keep => s.onRing .ignored (.trim keep)

/-- The receiver with its ring. -/
def playoutMachine (conv : S24 → α) (mode : ReacMode) : Machine (Playout α) PlayoutInput (PlayoutOut α) :=
  ⟨playoutStep conv mode⟩

@[simp] theorem playoutMachine_step (conv : S24 → α) (mode : ReacMode) (s : Playout α) (i : PlayoutInput) :
    (playoutMachine conv mode).step s i = playoutStep conv mode s i := rfl

end Machine

end Libreac
