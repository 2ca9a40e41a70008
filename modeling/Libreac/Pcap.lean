import Libreac.Bytes
import Libreac.Words

/-!
# The capture reader

`pcap_source.c`: classic capture files, in either byte order. What is left of the file stands for the
stream; a read takes as many bytes as there are. The length of a record is whatever its header says, up
to 32 bits, so a record larger than the caller's buffer is read past in pieces of the buffer's size.
-/

namespace Libreac

/-- `struct pcap_source`; `f` is what is left of an open file. -/
structure PcapSource where
  f : Option (List UInt8) := none
  swapped : Bool := false
  lastOrigLen : UInt32 := 0
  lastVlanTagged : Bool := false
  lastVlanId : UInt16 := 0
  skippedOversized : UInt32 := 0
  deriving DecidableEq

/-- `PCAP_MAGIC`, and what it is in the other byte order. -/
def pcapMagic : UInt32 := 0xA1B2C3D4

def pcapMagicSwap : UInt32 := 0xD4C3B2A1

/-- `rd_u32`. -/
def rdU32 (p : List UInt8) (off : ℕ) (swap : Bool) : UInt32 :=
  if swap then Words.byteSwap32 (Records.u32 p off) else Records.u32 p off

/-- `pcap_source_open`: whether the file is a capture. -/
def pcapSourceOpen (file : Option (List UInt8)) : PcapSource × Bool :=
  match file with
  | none => ({}, false)
  | some f =>
    let gh := f.take 24
    if gh.length ≠ 24 then ({}, false)
    else
      let magic := Records.u32 gh 0
      if magic = pcapMagic then ({ f := some (f.drop 24), swapped := false }, true)
      else if magic = pcapMagicSwap then ({ f := some (f.drop 24), swapped := true }, true)
      else ({}, false)

/-- What a call hands back: a frame and its time, the end of the file, or an error. -/
inductive PcapRead where
  | frame (buf : List UInt8) (tsUsec : UInt64)
  | eof
  | error
  deriving DecidableEq

/-- The value a call returns. -/
def PcapRead.ret : PcapRead → ℤ
  | .frame buf _ => buf.length
  | .eof => 0
  | .error => -1

/-- One piece of a body that is read past. -/
def discardChunk (cap : UInt64) (left : UInt32) : UInt64 :=
  if left.toUInt64 < cap then left.toUInt64 else cap

theorem discardChunk_toNat (cap : UInt64) (left : UInt32) :
    (discardChunk cap left).toNat = min left.toNat cap.toNat := by
  unfold discardChunk
  simp only [UInt64.lt_iff_toNat_lt, UInt32.toNat_toUInt64]
  split_ifs with h
  · rw [UInt32.toNat_toUInt64]
    omega
  · omega

/-- What is left of a body after a piece of it. -/
theorem discardChunk_sub (cap : UInt64) (left : UInt32) :
    (left - (discardChunk cap left).toUInt32).toNat = left.toNat - (discardChunk cap left).toNat := by
  have hchunk := discardChunk_toNat cap left
  have hlt := left.toNat_lt
  have hword : (discardChunk cap left).toUInt32.toNat = (discardChunk cap left).toNat := by
    rw [UInt64.toNat_toUInt32]
    exact Nat.mod_eq_of_lt (by omega)
  rw [UInt32.toNat_sub_of_le _ _ (UInt32.le_iff_toNat_le.mpr (by omega)), hword]

/-- Read past the `left` bytes of a body: what is left of the file, and whether they were all there. -/
def pcapDiscard (cap : UInt64) (left : UInt32) (f : List UInt8) : List UInt8 × Bool :=
  if left = 0 then (f, true)
  else
    let chunk := discardChunk cap left
    if chunk = 0 ∨ (f.take chunk.toNat).length ≠ chunk.toNat then (f.drop chunk.toNat, false)
    else pcapDiscard cap (left - chunk.toUInt32) (f.drop chunk.toNat)
termination_by left.toNat
decreasing_by
  rename_i hleft hchunk
  have hpos : 0 < (discardChunk cap left).toNat := by
    refine Nat.pos_of_ne_zero fun hzero => hchunk (.inl ?_)
    exact UInt64.toNat_inj.mp hzero
  have hleft' : left.toNat ≠ 0 := fun hzero => hleft (UInt32.toNat_inj.mp hzero)
  rw [discardChunk_sub]
  omega

theorem pcapDiscard_length (cap : UInt64) (left : UInt32) (f : List UInt8) :
    (pcapDiscard cap left f).1.length ≤ f.length := by
  induction left, f using pcapDiscard.induct cap with
  | case1 f =>
    unfold pcapDiscard
    rw [if_pos rfl]
  | case2 left f hleft chunk hchunk =>
    unfold pcapDiscard
    rw [if_neg hleft]
    dsimp only
    rw [if_pos hchunk, List.length_drop]
    omega
  | case3 left f hleft chunk hchunk ih =>
    unfold pcapDiscard
    rw [if_neg hleft]
    dsimp only
    rw [if_neg hchunk]
    refine ih.trans ?_
    rw [List.length_drop]
    omega

/-- A record that is kept: the tag of a tagged one is taken out of the buffer. -/
def pcapKeep (ps : PcapSource) (buf : List UInt8) (tsUsec : UInt64) : PcapSource × PcapRead :=
  if 18 ≤ buf.length ∧ byteAt buf 12 = 0x81 ∧ byteAt buf 13 = 0x00 then
    ({ ps with
      lastVlanTagged := true
      lastVlanId := ((byteAt buf 14).toUInt16 <<< 8 ||| (byteAt buf 15).toUInt16) &&& 0x0fff },
      .frame (buf.take 12 ++ buf.drop 16) tsUsec)
  else ({ ps with lastVlanTagged := false, lastVlanId := 0 }, .frame buf tsUsec)

/-- The loop of `pcap_source_next`, over what is left of the file. -/
def pcapScan (cap : UInt64) (ps : PcapSource) (f : List UInt8) : PcapSource × PcapRead :=
  let ph := f.take 16
  let f' := f.drop 16
  if ph.length = 0 then ({ ps with f := some f' }, .eof)
  else if ph.length ≠ 16 then ({ ps with f := some f' }, .error)
  else
    let sec := rdU32 ph 0 ps.swapped
    let usec := rdU32 ph 4 ps.swapped
    let incl := rdU32 ph 8 ps.swapped
    -- an empty record carries no frame
    if incl = 0 then pcapScan cap ps f'
    else
      let ps := { ps with lastOrigLen := rdU32 ph 12 ps.swapped }
      if cap < incl.toUInt64 then
        let ps := { ps with skippedOversized := ps.skippedOversized + 1 }
        let d := pcapDiscard cap incl f'
        if d.2 then pcapScan cap ps d.1 else ({ ps with f := some d.1 }, .error)
      else
        let ps := { ps with f := some (f'.drop incl.toNat) }
        let buf := f'.take incl.toNat
        if buf.length ≠ incl.toNat then (ps, .error)
        else pcapKeep ps buf (sec.toUInt64 * 1000000 + usec.toUInt64)
termination_by f.length
decreasing_by
  · have hlen : ph.length = min 16 f.length := List.length_take
    rw [List.length_drop]
    omega
  · have hlen : ph.length = min 16 f.length := List.length_take
    refine Nat.lt_of_le_of_lt (pcapDiscard_length _ _ _) ?_
    rw [List.length_drop]
    omega

/-- `pcap_source_next`. -/
def pcapSourceNext (ps : PcapSource) (cap : UInt64) : PcapSource × PcapRead :=
  match ps.f with
  | none => (ps, .error)
  | some f => pcapScan cap ps f

end Libreac
