import Mathlib.Data.Int.Notation
import Libreac.Ctrl
import Libreac.Disco

/-!
# The braid codec

The byte map of `reac_braid.h`, the encoder and the downstream builder of `reac_encode.c` and the two
decoders. A sample is its 24-bit value, three bytes lo, mid, hi: the conversion from and to float
stays outside.
-/

namespace Libreac

/-- A 24-bit sample as its bytes lo, mid, hi. -/
abbrev S24 := Vector UInt8 3

/-- Digital silence. -/
def silence : S24 := Vector.replicate 3 0

/-- The samples of one channel in a frame, `REAC_SAMPLES_PER_PKT`. -/
def frameSamples : ℕ := 12

/-- `REAC_FRAME_BYTES`. -/
def frameBytes : ℕ := 1492

/-- `REAC_AUDIO_BYTES`. -/
def audioBytes : ℕ := 1440

/-- `reac_braid_pos`: where the bytes lo, mid, hi of a sample go. -/
def braidPos (s ch nCh : ℕ) : Vector ℕ 3 :=
  let g := (s * nCh + (ch - ch % 2)) * 3
  if ch % 2 = 0 then #v[g + 3, g + 0, g + 1] else #v[g + 4, g + 5, g + 2]

/-! ## Encoding -/

/-- The `float *const *planar` of the encoder: the array of planes and each plane may be missing. -/
abbrev Planes := Option (ℕ → Option (ℕ → S24))

/-- A plane that is missing, or beyond those the caller has, is silent. -/
def Planes.sample (planar : Planes) (nSrc : ℤ) (ch s : ℕ) : S24 :=
  match planar with
  | none => silence
  | some planes =>
    if (ch : ℤ) < nSrc then
      match planes ch with
      | none => silence
      | some plane => plane s
    else silence

/-- The samples the encoder writes per channel. -/
def encodeFrames (ns : ℤ) : ℕ := (min ns frameSamples).toNat

/-- `reac_braid_encode`. -/
def braidEncode (audio : List UInt8) (nCh : ℕ) (planar : Planes) (nSrc ns : ℤ) : List UInt8 :=
  (List.range (encodeFrames ns)).foldl
    (fun audio s =>
      (List.range nCh).foldl
        (fun audio ch =>
          let b := planar.sample nSrc ch s
          let pos := braidPos s ch nCh
          ((audio.set pos[0] b[0]).set pos[1] b[1]).set pos[2] b[2])
        audio)
    audio

/-- The 50 bytes in front of the audio of a downstream frame. -/
def downstreamHead (counter : UInt16) (src : Mac) : List UInt8 :=
  broadcastMac.toList ++ src.toList ++ [0x88, 0x19, counter.toUInt8, (counter >>> 8).toUInt8] ++
    List.replicate 34 0

/-- `reac_downstream_build`. -/
def downstreamBuild (planar : Planes) (nch ns : ℤ) (counter : UInt16) (src : Mac) : List UInt8 :=
  downstreamHead counter src ++
    braidEncode (List.replicate audioBytes 0) reacMaxChannels planar nch ns ++ [0xc2, 0xea]

/-! ## Decoding -/

/-- `struct reac_mode`. -/
structure ReacMode where
  sampleRate : ℤ
  nChannels : ℤ
  samplesPerPkt : ℤ

/-- `REAC_MODE_48K`. -/
def reacMode48k : ReacMode := { sampleRate := 48000, nChannels := 40, samplesPerPkt := 12 }

/-- The EtherType and the end marker of a frame. -/
def framed (raw : List UInt8) : Bool :=
  byteAt raw 12 = 0x88 ∧ byteAt raw 13 = 0x19 ∧ byteAt raw (raw.length - 2) = 0xc2 ∧
    byteAt raw (raw.length - 1) = 0xea

/-- The loop of both decoders: planar out, each sample through the byte map. -/
def unbraid (audio : List UInt8) (nch ns : ℕ) : List UInt8 :=
  (List.range nch).flatMap fun ch =>
    (List.range ns).flatMap fun s =>
      let pos := braidPos s ch nch
      [audio.getD pos[0] 0, audio.getD pos[1] 0, audio.getD pos[2] 0]

/-- The `valid` flag of `reac_frame_inspect`. -/
def frameInspect (raw : List UInt8) : Bool := raw.length = frameBytes ∧ framed raw

/-- `reac_decode`: the planar bytes, and the samples per channel. -/
def reacDecode (raw : List UInt8) (mode : ReacMode) : Option (List UInt8 × ℤ) :=
  if !frameInspect raw then none
  else if mode.nChannels ≤ 0 ∨ mode.nChannels % 2 ≠ 0 ∨ mode.samplesPerPkt ≤ 0 ∨
      (audioBytes : ℤ) < mode.nChannels * mode.samplesPerPkt * 3 then none
  else
    some (unbraid (raw.drop 50) mode.nChannels.toNat mode.samplesPerPkt.toNat, mode.samplesPerPkt)

/-- `reac_upstream_decode`. -/
def upstreamDecode (raw : List UInt8) : Option (List UInt8 × ℤ) :=
  let nch := upstreamChannels raw.length
  if nch = 0 then none
  else if !framed raw then none
  else some (unbraid (raw.drop 50) nch frameSamples, frameSamples)

/-- The planes a planar output holds. -/
def planesOf (out : List UInt8) (ns : ℕ) : Planes :=
  some fun ch => some fun s => Vector.ofFn fun k => out.getD ((ch * ns + s) * 3 + k) 0

end Libreac
