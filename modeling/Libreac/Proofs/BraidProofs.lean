import Mathlib.Algebra.Group.Even
import Mathlib.Data.Fintype.Basic
import Mathlib.Data.Set.Function
import Mathlib.Order.Interval.Set.Basic
import Mathlib.Tactic.FinCases
import Mathlib.Tactic.IntervalCases
import Mathlib.Tactic.Ring
import Libreac.Braid
import Libreac.Scatter

/-!
# The braid is a bijection and the decoders invert it

A channel pair of one time sample owns six neighbouring bytes; `braidAt` says which of them a byte of
a sample takes. The encoder is a scatter along `braidAt` and both decoders gather along it, so the
round trips follow from the map being a bijection onto the audio region.
-/

namespace Libreac

open Scatter

/-- A byte of a braided region: time sample, channel, and which of lo, mid, hi. -/
abbrev BraidIx := ℕ × ℕ × Fin 3

/-- The position of such a byte. -/
def braidAt (n : ℕ) (i : BraidIx) : ℕ := (braidPos i.1 i.2.1 n)[i.2.2]

/-- The byte's place among the six of its channel pair. -/
def braidLane (odd : Bool) (k : Fin 3) : ℕ :=
  if odd then (#v[4, 5, 2] : Vector ℕ 3)[k] else (#v[3, 0, 1] : Vector ℕ 3)[k]

/-- The bytes of an `n` channel region of `frames` time samples, in the order of the encoder. -/
def braidIndices (frames n : ℕ) : List BraidIx :=
  (List.range frames).flatMap fun s =>
    (List.range n).flatMap fun ch => (List.finRange 3).map fun k => (s, ch, k)

theorem mem_braidIndices {frames n : ℕ} {i : BraidIx} :
    i ∈ braidIndices frames n ↔ i.1 < frames ∧ i.2.1 < n := by
  obtain ⟨s, ch, k⟩ := i
  simp [braidIndices]

/-! ## The map -/

theorem braidLane_lt (odd : Bool) (k : Fin 3) : braidLane odd k < 6 := by
  revert odd k
  decide

theorem braidLane_inj {odd odd' : Bool} {k k' : Fin 3} (h : braidLane odd k = braidLane odd' k') :
    odd = odd' ∧ k = k' := by
  revert odd odd' k k'
  decide

theorem exists_braidLane {c : ℕ} (hc : c < 6) : ∃ odd k, braidLane odd k = c := by
  interval_cases c
  · exact ⟨false, 1, rfl⟩
  · exact ⟨false, 2, rfl⟩
  · exact ⟨true, 2, rfl⟩
  · exact ⟨false, 0, rfl⟩
  · exact ⟨true, 0, rfl⟩
  · exact ⟨true, 1, rfl⟩

/-- The pairs of a region are numbered sample by sample. -/
theorem braidAt_eq (m : ℕ) (i : BraidIx) :
    braidAt (2 * m) i = 6 * (i.1 * m + i.2.1 / 2) + braidLane (i.2.1 % 2 == 1) i.2.2 := by
  obtain ⟨s, ch, k⟩ := i
  have hpair : (s * (2 * m) + (ch - ch % 2)) * 3 = 6 * (s * m + ch / 2) := by
    have : ch - ch % 2 = 2 * (ch / 2) := by omega
    rw [this]
    ring
  unfold braidAt braidPos braidLane
  dsimp only
  rw [hpair]
  rcases Nat.mod_two_eq_zero_or_one ch with h | h
  · rw [if_pos h, h]
    fin_cases k <;> rfl
  · rw [if_neg (by omega), h]
    fin_cases k <;> rfl

theorem braidAt_lt {m : ℕ} {i : BraidIx} {frames : ℕ} (hs : i.1 < frames) (hch : i.2.1 < 2 * m) :
    braidAt (2 * m) i < frames * (6 * m) := by
  have hlane := braidLane_lt (i.2.1 % 2 == 1) i.2.2
  have hrow : i.1 * m + m ≤ frames * m := by
    rw [← Nat.succ_mul]
    exact Nat.mul_le_mul_right m hs
  have hpair : i.2.1 / 2 < m := by omega
  rw [braidAt_eq, show frames * (6 * m) = 6 * (frames * m) by ring]
  omega

theorem braidAt_inj {m : ℕ} {i j : BraidIx} (hi : i.2.1 < 2 * m) (hj : j.2.1 < 2 * m)
    (h : braidAt (2 * m) i = braidAt (2 * m) j) : i = j := by
  obtain ⟨s, ch, k⟩ := i
  obtain ⟨s', ch', k'⟩ := j
  dsimp only at hi hj
  rw [braidAt_eq, braidAt_eq] at h
  dsimp only at h
  have hl := braidLane_lt (ch % 2 == 1) k
  have hl' := braidLane_lt (ch' % 2 == 1) k'
  have hlane : braidLane (ch % 2 == 1) k = braidLane (ch' % 2 == 1) k' := by omega
  have hpair : ch / 2 + m * s = ch' / 2 + m * s' := by
    rw [Nat.mul_comm m s, Nat.mul_comm m s']
    omega
  obtain ⟨hodd, rfl⟩ := braidLane_inj hlane
  have hm : 0 < m := by omega
  have hs : s = s' := by
    have hdiv := congrArg (· / m) hpair
    simpa [Nat.add_mul_div_left _ _ hm, Nat.div_eq_of_lt (show ch / 2 < m by omega),
      Nat.div_eq_of_lt (show ch' / 2 < m by omega)] using hdiv
  subst hs
  have hch : ch = ch' := by
    have hpar : ch % 2 = ch' % 2 := by
      rcases Nat.mod_two_eq_zero_or_one ch with h₀ | h₀ <;>
        rcases Nat.mod_two_eq_zero_or_one ch' with h₁ | h₁ <;> simp [h₀, h₁] at hodd ⊢
    omega
  rw [hch]

theorem exists_braidAt {m frames p : ℕ} (hp : p < frames * (6 * m)) :
    ∃ i : BraidIx, (i.1 < frames ∧ i.2.1 < 2 * m) ∧ braidAt (2 * m) i = p := by
  have hm : 0 < m := by
    rcases Nat.eq_zero_or_pos m with rfl | hm
    · simp at hp
    · exact hm
  obtain ⟨odd, k, hlane⟩ := exists_braidLane (Nat.mod_lt p (by decide : 0 < 6))
  set q := p / 6 with hq
  have hqlt : q < frames * m := by
    rw [show frames * (6 * m) = 6 * (frames * m) by ring] at hp
    omega
  have hmod := Nat.mod_lt q hm
  refine ⟨(q / m, 2 * (q % m) + odd.toNat, k), ⟨?_, ?_⟩, ?_⟩
  · exact Nat.div_lt_of_lt_mul (Nat.mul_comm frames m ▸ hqlt)
  · have := Bool.toNat_le odd
    dsimp only
    omega
  · have hpar : ((2 * (q % m) + odd.toNat) % 2 == 1) = odd := by
      cases odd <;> simp
    have hhalf : (2 * (q % m) + odd.toNat) / 2 = q % m := by
      have := Bool.toNat_le odd
      omega
    rw [braidAt_eq]
    dsimp only
    rw [hpar, hhalf, hlane, Nat.mul_comm (q / m) m, Nat.div_add_mod q m]
    omega

/-- Every byte of the region belongs to exactly one byte of one sample. -/
theorem braidAt_bijOn {n : ℕ} (heven : Even n) (frames : ℕ) :
    Set.BijOn (braidAt n) {i | i.1 < frames ∧ i.2.1 < n} (Set.Iio (frames * (3 * n))) := by
  obtain ⟨m, rfl⟩ := heven
  rw [← Nat.two_mul, show frames * (3 * (2 * m)) = frames * (6 * m) by ring]
  refine ⟨?_, ?_, ?_⟩
  · intro i hi
    exact braidAt_lt hi.1 hi.2
  · intro i hi j hj h
    exact braidAt_inj hi.2 hj.2 h
  · intro p hp
    exact exists_braidAt hp

/-! ## The codec as a scatter and a gather -/

/-- The encoder writes the byte `k` of sample `s` of channel `ch` at its braid position. -/
theorem braidEncode_eq_scatter (audio : List UInt8) (n : ℕ) (planar : Planes) (nSrc ns : ℤ) :
    braidEncode audio n planar nSrc ns =
      scatter (braidAt n) (fun i => (planar.sample nSrc i.2.1 i.1)[i.2.2])
        (braidIndices (encodeFrames ns) n) audio := by
  unfold braidEncode braidIndices
  rw [← foldl_scatter]
  congr 1
  funext audio s
  rw [← foldl_scatter]
  congr 1

/-- The bytes of a planar output: each channel's samples, lo, mid, hi. -/
def planarBytes (n ns : ℕ) (f : ℕ → ℕ → S24) : List UInt8 :=
  (List.range n).flatMap fun ch => (List.range ns).flatMap fun s => (f ch s).toList

/-- What a decoder reads is planar. -/
theorem unbraid_eq_planarBytes (audio : List UInt8) (n ns : ℕ) :
    unbraid audio n ns =
      planarBytes n ns fun ch s => Vector.ofFn fun k => audio.getD (braidAt n (s, ch, k)) 0 := by
  rfl

theorem length_braidEncode (audio : List UInt8) (n : ℕ) (planar : Planes) (nSrc ns : ℤ) :
    (braidEncode audio n planar nSrc ns).length = audio.length := by
  rw [braidEncode_eq_scatter, scatter_length]

theorem encodeFrames_le (ns : ℤ) : encodeFrames ns ≤ frameSamples := by
  unfold encodeFrames
  omega

/-- The sample the region carries: silence beyond what the caller has. -/
def sentSample (planar : Planes) (nSrc ns : ℤ) (ch s : ℕ) : S24 :=
  if (s : ℤ) < ns then planar.sample nSrc ch s else silence

theorem lt_encodeFrames_iff {ns : ℤ} {s : ℕ} (hs : s < frameSamples) :
    s < encodeFrames ns ↔ (s : ℤ) < ns := by
  unfold encodeFrames
  omega

/-- The region written over zeroed bytes holds each sample at its braid positions. -/
theorem getElem?_braidEncode {n : ℕ} (heven : Even n) (planar : Planes) (nSrc ns : ℤ) {i : BraidIx}
    (hs : i.1 < frameSamples) (hch : i.2.1 < n) :
    (braidEncode (List.replicate (frameSamples * (3 * n)) 0) n planar nSrc ns)[braidAt n i]? =
      some (sentSample planar nSrc ns i.2.1 i.1)[i.2.2] := by
  have hbij := braidAt_bijOn heven frameSamples
  have hlt : braidAt n i < frameSamples * (3 * n) := hbij.mapsTo ⟨hs, hch⟩
  have hmem : ∀ j ∈ braidIndices (encodeFrames ns) n, j.1 < frameSamples ∧ j.2.1 < n := by
    intro j hj
    obtain ⟨hj₁, hj₂⟩ := mem_braidIndices.mp hj
    exact ⟨lt_of_lt_of_le hj₁ (encodeFrames_le ns), hj₂⟩
  have hinj : ∀ j ∈ braidIndices (encodeFrames ns) n, ∀ j', j'.1 < frameSamples ∧ j'.2.1 < n →
      braidAt n j = braidAt n j' → j = j' := by
    intro j hj j' hj' h
    exact hbij.injOn (hmem j hj) hj' h
  rw [braidEncode_eq_scatter, sentSample]
  by_cases hsent : (i.1 : ℤ) < ns
  · rw [if_pos hsent]
    refine getElem?_scatter (fun j hj j' hj' => hinj j hj j' (hmem j' hj')) ?_ ?_
    · exact mem_braidIndices.mpr ⟨(lt_encodeFrames_iff hs).mpr hsent, hch⟩
    · rw [List.length_replicate]
      exact hlt
  · rw [if_neg hsent, getElem?_scatter_of_forall_ne, List.getElem?_replicate_of_lt hlt]
    · simp [silence]
    · intro j hj h
      obtain rfl := hinj j hj i ⟨hs, hch⟩ h
      exact hsent ((lt_encodeFrames_iff hs).mp (mem_braidIndices.mp hj).1)

/-- Reading a written region gives back the samples that went in. -/
theorem unbraid_braidEncode {n : ℕ} (heven : Even n) (planar : Planes) (nSrc ns : ℤ)
    (rest : List UInt8) :
    unbraid (braidEncode (List.replicate (frameSamples * (3 * n)) 0) n planar nSrc ns ++ rest) n
        frameSamples = planarBytes n frameSamples (sentSample planar nSrc ns) := by
  rw [unbraid_eq_planarBytes]
  unfold planarBytes
  refine List.flatMap_congr fun ch hch => List.flatMap_congr fun s hs => ?_
  rw [List.mem_range] at hch hs
  congr 1
  ext k hk
  have hread := getElem?_braidEncode heven planar nSrc ns (i := (s, ch, ⟨k, hk⟩)) hs hch
  rw [Vector.getElem_ofFn, List.getD_eq_getElem?_getD, List.getElem?_append_left, hread]
  · rfl
  · exact (List.getElem?_eq_some_iff.mp hread).1

/-- Reading a planar output at a sample gives back the sample. -/
theorem sample_planesOf (n : ℕ) (f : ℕ → ℕ → S24) {nSrc : ℤ} {ch s : ℕ} (hsrc : (n : ℤ) ≤ nSrc)
    (hch : ch < n) (hs : s < frameSamples) :
    (planesOf (planarBytes n frameSamples f) frameSamples).sample nSrc ch s = f ch s := by
  have hblock : ∀ ch, ((List.range frameSamples).flatMap fun s => (f ch s).toList).length =
      frameSamples * 3 := by
    intro ch
    simp [List.length_flatMap, frameSamples]
  have hsrc' : (ch : ℤ) < nSrc := by omega
  simp only [planesOf, Planes.sample, hsrc', if_true]
  ext k hk
  have hs' : s * 3 + k < frameSamples * 3 := by omega
  have hat : (ch * frameSamples + s) * 3 + k = ch * (frameSamples * 3) + (s * 3 + k) := by ring
  have hread : (planarBytes n frameSamples f)[(ch * frameSamples + s) * 3 + k]? =
      (f ch s).toList[k]? := by
    rw [hat]
    unfold planarBytes
    rw [getElem?_flatMap_range (fun ch _ => hblock ch) hch hs',
      getElem?_flatMap_range (fun s _ => (f ch s).length_toList) hs hk]
  rw [Vector.getElem_ofFn, List.getD_eq_getElem?_getD, hread]
  simp [hk]

/-- Encoding the planes read from a region over any bytes rebuilds it. -/
theorem braidEncode_unbraid {n : ℕ} (heven : Even n) {region buf : List UInt8}
    (hregion : region.length = frameSamples * (3 * n)) (hbuf : buf.length = region.length) :
    braidEncode buf n (planesOf (unbraid region n frameSamples) frameSamples) n frameSamples =
      region := by
  have hbij := braidAt_bijOn heven frameSamples
  rw [braidEncode_eq_scatter]
  refine scatter_of_onto hbuf ?_ ?_
  · intro i hi
    obtain ⟨hs, hch⟩ := mem_braidIndices.mp hi
    have hs' : i.1 < frameSamples := hs
    have hlt : braidAt n i < region.length := hregion ▸ hbij.mapsTo ⟨hs', hch⟩
    rw [unbraid_eq_planarBytes, sample_planesOf n _ (le_refl _) hch hs',
      List.getElem?_eq_getElem hlt]
    simp [hlt]
  · intro p hp
    obtain ⟨i, ⟨hs, hch⟩, hi⟩ := hbij.surjOn (hregion ▸ hp : p < frameSamples * (3 * n))
    exact ⟨i, mem_braidIndices.mpr ⟨hs, hch⟩, hi⟩

/-! ## The decoders -/

/-- An upstream frame around an audio region. -/
def upstreamFrame (head region : List UInt8) : List UInt8 := head ++ region ++ [0xc2, 0xea]

theorem framed_append {head region : List UInt8} (hhead : head.length = 50)
    (htype : byteAt head 12 = 0x88 ∧ byteAt head 13 = 0x19) :
    framed (head ++ region ++ [0xc2, 0xea]) = true := by
  obtain ⟨h₁, h₂⟩ := htype
  have hlen : (head ++ region ++ [0xc2, 0xea]).length = head.length + region.length + 2 := by
    simp [Nat.add_assoc]
  have hbyte : ∀ i < 50, byteAt (head ++ region ++ [0xc2, 0xea]) i = byteAt head i := by
    intro i hi
    unfold byteAt
    rw [List.append_assoc, List.getD_eq_getElem?_getD, List.getElem?_append_left (by omega),
      List.getD_eq_getElem?_getD]
  have hlast : ∀ i < 2, byteAt (head ++ region ++ [0xc2, 0xea]) (head.length + region.length + i) =
      byteAt [0xc2, 0xea] i := by
    intro i _
    unfold byteAt
    rw [List.getD_eq_getElem?_getD, List.getElem?_append_right (by simp), List.length_append,
      Nat.add_sub_cancel_left, List.getD_eq_getElem?_getD]
  unfold framed
  rw [hbyte 12 (by decide), hbyte 13 (by decide), hlen]
  have h₃ := hlast 0 (by decide)
  have h₄ := hlast 1 (by decide)
  rw [Nat.add_zero] at h₃
  rw [Nat.add_sub_cancel, show head.length + region.length + 2 - 1 = head.length + region.length + 1 by
    omega, h₁, h₂, h₃, h₄]
  rfl

theorem upstreamChannels_of_width {n : ℕ} (heven : Even n) (hn : 2 ≤ n ∧ n ≤ 40) :
    upstreamChannels (52 + 36 * n) = n := by
  obtain ⟨m, rfl⟩ := heven
  have hok : upstreamLenOk (52 + 36 * (m + m)) = true := by
    simp only [upstreamLenOk, decide_eq_true_eq]
    omega
  rw [upstreamChannels, if_pos hok]
  omega

/-- A well-formed upstream frame is decoded to what its region reads as. -/
theorem upstreamDecode_frame {n : ℕ} (heven : Even n) (hn : 2 ≤ n ∧ n ≤ 40)
    {head region out : List UInt8} (hhead : head.length = 50)
    (htype : byteAt head 12 = 0x88 ∧ byteAt head 13 = 0x19) (hregion : region.length = 36 * n)
    (hread : unbraid (region ++ [0xc2, 0xea]) n frameSamples = out) :
    upstreamDecode (upstreamFrame head region) = some (out, 12) := by
  have hlen : (upstreamFrame head region).length = 52 + 36 * n := by
    simp [upstreamFrame, hhead, hregion]
    omega
  have hdrop : (upstreamFrame head region).drop 50 = region ++ [0xc2, 0xea] := by
    rw [upstreamFrame, List.append_assoc, ← hhead, List.drop_left]
  have hframed : framed (upstreamFrame head region) = true := framed_append hhead htype
  have hpos : n ≠ 0 := by omega
  unfold upstreamDecode
  simp only [hlen, upstreamChannels_of_width heven hn, hpos, if_false, hframed, hdrop, hread]
  rfl

theorem length_downstreamHead (counter : UInt16) (src : Mac) :
    (downstreamHead counter src).length = 50 := by
  simp [downstreamHead]

theorem downstreamHead_type (counter : UInt16) (src : Mac) :
    byteAt (downstreamHead counter src) 12 = 0x88 ∧ byteAt (downstreamHead counter src) 13 = 0x19 := by
  constructor <;> simp [downstreamHead, byteAt]

theorem length_downstreamBuild (planar : Planes) (nch ns : ℤ) (counter : UInt16) (src : Mac) :
    (downstreamBuild planar nch ns counter src).length = frameBytes := by
  rw [downstreamBuild, List.length_append, List.length_append, length_downstreamHead,
    length_braidEncode, List.length_replicate]
  rfl

/-- On a frame of the downstream length both decoders look at the same bytes the same way. -/
theorem reacDecode_eq_upstreamDecode {raw : List UInt8} {mode : ReacMode}
    (hmode : mode.nChannels = 40 ∧ mode.samplesPerPkt = 12) (hlen : raw.length = frameBytes) :
    reacDecode raw mode = upstreamDecode raw := by
  have hwidth : upstreamChannels frameBytes = 40 := by decide
  unfold reacDecode upstreamDecode frameInspect
  rw [hlen, hwidth, hmode.1, hmode.2]
  by_cases hf : framed raw = true
  · simp [hf, audioBytes, frameSamples]
  · simp [hf]

/-- The codec is a bijection on samples, and decoders and encoder invert each other: the byte map
covers the region exactly once, what was encoded over zeroes is decoded, what was decoded is encoded
back, and the two decoders agree on every frame of the downstream length. -/
theorem braid_codec {n : ℕ} (heven : Even n) (hn : 2 ≤ n ∧ n ≤ 40) :
    Set.BijOn (braidAt n) {i | i.1 < 12 ∧ i.2.1 < n} (Set.Iio (36 * n)) ∧
    (∀ (planar : Planes) (nSrc ns : ℤ) (head : List UInt8), head.length = 50 →
      byteAt head 12 = 0x88 ∧ byteAt head 13 = 0x19 →
      upstreamDecode
          (upstreamFrame head (braidEncode (List.replicate (36 * n) 0) n planar nSrc ns)) =
        some (planarBytes n 12 (sentSample planar nSrc ns), 12)) ∧
    (∀ (region buf : List UInt8), region.length = 36 * n → buf.length = 36 * n →
      braidEncode buf n (planesOf (unbraid region n 12) 12) n 12 = region) ∧
    (∀ (mode : ReacMode), mode.nChannels = 40 ∧ mode.samplesPerPkt = 12 →
      (∀ (planar : Planes) (nch ns : ℤ) (counter : UInt16) (src : Mac),
        reacDecode (downstreamBuild planar nch ns counter src) mode =
          some (planarBytes 40 12 (sentSample planar nch ns), 12)) ∧
      ∀ raw : List UInt8, raw.length = 1492 → reacDecode raw mode = upstreamDecode raw) := by
  have hregion : frameSamples * (3 * n) = 36 * n := by
    unfold frameSamples
    omega
  have hrange : 12 * (3 * n) = 36 * n := by omega
  refine ⟨hrange ▸ braidAt_bijOn heven 12, ?_, ?_, ?_⟩
  · intro planar nSrc ns head hhead htype
    have hread := unbraid_braidEncode heven planar nSrc ns [0xc2, 0xea]
    rw [hregion] at hread
    exact upstreamDecode_frame heven hn hhead htype (by rw [length_braidEncode, List.length_replicate])
      hread
  · intro region buf hlen hbuf
    exact braidEncode_unbraid heven (hregion ▸ hlen) (hlen ▸ hbuf)
  · intro mode hmode
    refine ⟨?_, fun raw hlen => reacDecode_eq_upstreamDecode hmode hlen⟩
    intro planar nch ns counter src
    rw [reacDecode_eq_upstreamDecode hmode (length_downstreamBuild ..)]
    exact upstreamDecode_frame (by decide : Even 40) (by decide) (length_downstreamHead counter src)
      (downstreamHead_type counter src) (by rw [length_braidEncode, List.length_replicate]; rfl)
      (unbraid_braidEncode (by decide : Even 40) planar nch ns [0xc2, 0xea])

/-- One plane of two, five samples of it: the rest of a box's frame is silent. -/
theorem braid_codec_pair :
    Set.BijOn (braidAt 2) {i | i.1 < 12 ∧ i.2.1 < 2} (Set.Iio (36 * 2)) ∧
    upstreamDecode
        (upstreamFrame (downstreamHead 7 noMac)
          (braidEncode (List.replicate (36 * 2) 0) 2
            (some fun ch => if ch = 0 then some fun _ => #v[1, 2, 3] else none) 2 5)) =
      some (planarBytes 2 12 fun ch s => if ch = 0 ∧ s < 5 then #v[1, 2, 3] else silence, 12) ∧
    reacDecode (downstreamBuild none 0 12 7 noMac) reacMode48k =
      some (planarBytes 40 12 fun _ _ => silence, 12) := by
  obtain ⟨hbij, hupstream, -, hdown⟩ := braid_codec (n := 2) (by decide) (by decide)
  refine ⟨hbij, ?_, ?_⟩
  · rw [hupstream _ 2 5 _ (length_downstreamHead 7 noMac) (downstreamHead_type 7 noMac)]
    decide
  · rw [(hdown reacMode48k (by decide)).1 none 0 12 7 noMac]
    congr
    funext ch s
    simp [sentSample, Planes.sample]

end Libreac
