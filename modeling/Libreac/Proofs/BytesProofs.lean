import Mathlib.Tactic.SplitIfs
import Libreac.Ctrl

/-!
# Proofs: templates, checksums and clean frames
-/

namespace Libreac

theorem byte_of_lt (t : Template) {i : ℕ} (h : i < 34) : t.byte i = t[i] := by
  simp [Template.byte, Vector.getD, Array.getD, h]

theorem getD_ofFn {n : ℕ} (f : Fin n → UInt8) {i : ℕ} (h : i < n) :
    (Vector.ofFn f).getD i 0 = f ⟨i, h⟩ := by
  simp [Vector.getD, Array.getD, h]

theorem byte_ofFn (f : Fin 34 → UInt8) {i : ℕ} (h : i < 34) :
    Template.byte (Vector.ofFn f) i = f ⟨i, h⟩ := getD_ofFn f h

/-- The checksum stamp touches the last byte only. -/
theorem byte_stampBlockCksum (t : Template) {i : ℕ} (h : i ≠ 33) :
    (stampBlockCksum t).byte i = t.byte i := by
  by_cases hi : i < 34
  · rw [byte_of_lt _ hi, byte_of_lt _ hi]
    simp [stampBlockCksum, Ne.symm h]
  · simp [Template.byte, Vector.getD, Array.getD, hi]

theorem byteSum_congr {f g : ℕ → UInt8} {n : ℕ} (h : ∀ i < n, f i = g i) :
    byteSum f n = byteSum g n := by
  induction n with
  | zero => rfl
  | succ n ih =>
    simp only [byteSum]
    rw [ih fun i hi => h i (by omega), h n (by omega)]

/-- A stamped block closes. -/
theorem stampBlockCksum_cksumOk (t : Template) : (stampBlockCksum t).cksumOk := by
  have hsum : byteSum (fun i => (stampBlockCksum t).byte (2 + i)) 31
      = byteSum (fun i => t.byte (2 + i)) 31 :=
    byteSum_congr fun i hi => byte_stampBlockCksum t (by omega)
  have hlast : (stampBlockCksum t).byte (2 + 31) = 0 - byteSum (fun i => t.byte (2 + i)) 31 := by
    rw [byte_of_lt _ (by omega)]
    simp [stampBlockCksum]
  show byteSum _ 31 + (stampBlockCksum t).byte (2 + 31) = 0
  rw [hsum, hlast, UInt8.zero_sub, UInt8.add_right_neg]

/-- The stamp depends on the other 33 bytes alone. -/
theorem stampBlockCksum_congr {s t : Template} (h : ∀ i < 33, s.byte i = t.byte i) :
    stampBlockCksum s = stampBlockCksum t := by
  have hsum : byteSum (fun i => s.byte (2 + i)) 31 = byteSum (fun i => t.byte (2 + i)) 31 :=
    byteSum_congr fun i hi => h _ (by omega)
  apply Vector.ext
  intro i hi
  by_cases h33 : i = 33
  · subst h33
    simp [stampBlockCksum, hsum]
  · have := h i (by omega)
    rw [byte_of_lt _ hi, byte_of_lt _ hi] at this
    simpa [stampBlockCksum, Ne.symm h33] using this

/-- The seven-bit check byte closes the sum it was made for. -/
theorem sevenBit_closes (x : UInt8) : (x + ((0x80 - (x &&& 0x7f)) &&& 0x7f)) &&& 0x7f = 0 := by
  have hall : ∀ x : Fin 256,
      (UInt8.ofFin x + ((0x80 - (UInt8.ofFin x &&& 0x7f)) &&& 0x7f)) &&& 0x7f = 0 := by
    decide +kernel
  exact hall x.toFin

/-! ## Clean frames -/

theorem byteAt_cleanFrame (bytes : List UInt8) {i : ℕ} (hi : i < 52) :
    byteAt (cleanFrame bytes) i = byteAt bytes i := by
  have hlen : frameCleanLen bytes.length = bytes.length ∨ i < frameCleanLen bytes.length := by
    unfold frameCleanLen
    split_ifs <;> omega
  unfold byteAt cleanFrame
  rcases hlen with hlen | hlen
  · rw [hlen, List.take_length]
  · simp [List.getD_eq_getElem?_getD, hlen]

theorem macAt_cleanFrame (bytes : List UInt8) {off : ℕ} (h : off ≤ 40) :
    macAt (cleanFrame bytes) off = macAt bytes off := by
  ext i hi
  simp only [macAt, Vector.getElem_ofFn]
  rw [byteAt_cleanFrame bytes (by omega)]

theorem frameCounter_cleanFrame (bytes : List UInt8) :
    frameCounter (cleanFrame bytes) = frameCounter bytes := by
  simp only [frameCounter, byteAt_cleanFrame bytes (show 15 < 52 by omega),
    byteAt_cleanFrame bytes (show 14 < 52 by omega)]

end Libreac
