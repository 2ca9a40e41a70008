import Libreac.Records

/-!
# Words in either byte order

The four bytes of a word, the low one first or last, and the word read back from them.
-/

namespace Words

open Records (word32 u32)

/-- The bytes of a word, the low one first. -/
def le32 (v : UInt32) : List UInt8 :=
  [v.toUInt8, (v >>> 8).toUInt8, (v >>> 16).toUInt8, (v >>> 24).toUInt8]

/-- The word with its bytes in the other order. -/
def byteSwap32 (v : UInt32) : UInt32 :=
  word32 (v >>> 24).toUInt8 (v >>> 16).toUInt8 (v >>> 8).toUInt8 v.toUInt8

/-- The bytes of a word, in either order. -/
def bytes32 (swapped : Bool) (v : UInt32) : List UInt8 := if swapped then (le32 v).reverse else le32 v

@[simp] theorem bytes32_length (swapped : Bool) (v : UInt32) : (bytes32 swapped v).length = 4 := by
  unfold bytes32
  split_ifs <;> rfl

theorem word32_toNat (b₀ b₁ b₂ b₃ : UInt8) :
    (word32 b₀ b₁ b₂ b₃).toNat =
      b₀.toNat + 256 * b₁.toNat + 65536 * b₂.toNat + 16777216 * b₃.toNat := by
  have h₀ := b₀.toNat_lt
  have h₁ := b₁.toNat_lt
  have h₂ := b₂.toNat_lt
  have h₃ := b₃.toNat_lt
  have hshift : ∀ (b : UInt8) (k : UInt32), k.toNat ≤ 24 →
      (b.toUInt32 <<< k).toNat = b.toNat <<< k.toNat := by
    intro b k hk
    have hb := b.toNat_lt
    rw [UInt32.toNat_shiftLeft, UInt8.toNat_toUInt32, Nat.mod_eq_of_lt (show k.toNat < 32 by omega),
      Nat.shiftLeft_eq]
    refine Nat.mod_eq_of_lt ?_
    calc b.toNat * 2 ^ k.toNat ≤ b.toNat * 2 ^ 24 := Nat.mul_le_mul_left _ (Nat.pow_le_pow_right (by omega) hk)
      _ < 2 ^ 32 := by omega
  unfold word32
  rw [UInt32.toNat_or, UInt32.toNat_or, UInt32.toNat_or, hshift b₃ 24 (by decide), hshift b₂ 16 (by decide),
    hshift b₁ 8 (by decide), UInt8.toNat_toUInt32]
  show b₃.toNat <<< 24 ||| b₂.toNat <<< 16 ||| b₁.toNat <<< 8 ||| b₀.toNat = _
  have htwo : b₁.toNat <<< 8 ||| b₀.toNat = b₁.toNat <<< 8 + b₀.toNat :=
    (Nat.shiftLeft_add_eq_or_of_lt h₀ _).symm
  have hthree : b₂.toNat <<< 16 ||| (b₁.toNat <<< 8 + b₀.toNat) =
      b₂.toNat <<< 16 + (b₁.toNat <<< 8 + b₀.toNat) :=
    (Nat.shiftLeft_add_eq_or_of_lt (by rw [Nat.shiftLeft_eq]; omega) _).symm
  have hfour : b₃.toNat <<< 24 ||| (b₂.toNat <<< 16 + (b₁.toNat <<< 8 + b₀.toNat)) =
      b₃.toNat <<< 24 + (b₂.toNat <<< 16 + (b₁.toNat <<< 8 + b₀.toNat)) :=
    (Nat.shiftLeft_add_eq_or_of_lt (by rw [Nat.shiftLeft_eq, Nat.shiftLeft_eq]; omega) _).symm
  rw [Nat.or_assoc, Nat.or_assoc, htwo, hthree, hfour]
  simp only [Nat.shiftLeft_eq]
  omega

/-- A byte of a word. -/
theorem byte_toNat (v k : UInt32) (hk : k.toNat < 32) :
    (v >>> k).toUInt8.toNat = v.toNat / 2 ^ k.toNat % 256 := by
  rw [UInt32.toNat_toUInt8, UInt32.toNat_shiftRight, Nat.mod_eq_of_lt hk, Nat.shiftRight_eq_div_pow]

theorem word32_le32 (v : UInt32) :
    word32 v.toUInt8 (v >>> 8).toUInt8 (v >>> 16).toUInt8 (v >>> 24).toUInt8 = v := by
  have hv := v.toNat_lt
  rw [← UInt32.toNat_inj, word32_toNat, byte_toNat v 8 (by decide), byte_toNat v 16 (by decide),
    byte_toNat v 24 (by decide), UInt32.toNat_toUInt8]
  show v.toNat % 256 + 256 * (v.toNat / 256 % 256) + 65536 * (v.toNat / 65536 % 256) +
    16777216 * (v.toNat / 16777216 % 256) = v.toNat
  omega

/-- The bytes of a word that was made of bytes. -/
theorem word32_bytes (b₀ b₁ b₂ b₃ : UInt8) :
    (word32 b₀ b₁ b₂ b₃).toUInt8 = b₀ ∧ (word32 b₀ b₁ b₂ b₃ >>> 8).toUInt8 = b₁ ∧
      (word32 b₀ b₁ b₂ b₃ >>> 16).toUInt8 = b₂ ∧ (word32 b₀ b₁ b₂ b₃ >>> 24).toUInt8 = b₃ := by
  have h₀ := b₀.toNat_lt
  have h₁ := b₁.toNat_lt
  have h₂ := b₂.toNat_lt
  have h₃ := b₃.toNat_lt
  simp only [← UInt8.toNat_inj]
  rw [byte_toNat _ 8 (by decide), byte_toNat _ 16 (by decide), byte_toNat _ 24 (by decide),
    UInt32.toNat_toUInt8, word32_toNat]
  refine ⟨?_, ?_, ?_, ?_⟩
  · omega
  · show _ / 256 % 256 = _
    omega
  · show _ / 65536 % 256 = _
    omega
  · show _ / 16777216 % 256 = _
    omega

theorem byteSwap32_word32 (b₀ b₁ b₂ b₃ : UInt8) : byteSwap32 (word32 b₀ b₁ b₂ b₃) = word32 b₃ b₂ b₁ b₀ := by
  obtain ⟨h₀, h₁, h₂, h₃⟩ := word32_bytes b₀ b₁ b₂ b₃
  unfold byteSwap32
  rw [h₀, h₁, h₂, h₃]

/-- A word that was put at an offset is read back there. -/
theorem u32_bytes32 (swapped : Bool) (v : UInt32) (pre rest : List UInt8) :
    (if swapped then byteSwap32 (u32 (pre ++ bytes32 swapped v ++ rest) pre.length)
      else u32 (pre ++ bytes32 swapped v ++ rest) pre.length) = v := by
  have hbyte : ∀ b : List UInt8, ∀ i < b.length,
      Records.byte (pre ++ b ++ rest) (pre.length + i) = Records.byte b i := by
    intro b i hi
    unfold Records.byte
    rw [List.getD_eq_getElem?_getD, List.getD_eq_getElem?_getD, List.append_assoc,
      List.getElem?_append_right (Nat.le_add_right _ _), Nat.add_sub_cancel_left,
      List.getElem?_append_left hi]
  have hlen := bytes32_length swapped v
  have hword : u32 (pre ++ bytes32 swapped v ++ rest) pre.length = u32 (bytes32 swapped v) 0 := by
    have hzero := hbyte (bytes32 swapped v) 0 (by omega)
    rw [Nat.add_zero] at hzero
    unfold u32
    rw [hzero, hbyte _ 1 (by omega), hbyte _ 2 (by omega), hbyte _ 3 (by omega)]
  rw [hword]
  cases swapped with
  | false => exact word32_le32 v
  | true =>
    show byteSwap32 (word32 _ _ _ _) = v
    rw [byteSwap32_word32]
    exact word32_le32 v

/-- The bytes of a word that was read. -/
theorem bytes32_u32 (swapped : Bool) {l : List UInt8} {k : ℕ} (hk : k + 4 ≤ l.length) :
    bytes32 swapped (if swapped then byteSwap32 (u32 l k) else u32 l k) = (l.drop k).take 4 := by
  have hle : le32 (u32 l k) = (l.drop k).take 4 := by
    obtain ⟨h₀, h₁, h₂, h₃⟩ := word32_bytes (Records.byte l k) (Records.byte l (k + 1))
      (Records.byte l (k + 2)) (Records.byte l (k + 3))
    unfold le32 u32
    rw [h₀, h₁, h₂, h₃, Records.byte_of_lt (show k < l.length by omega),
      Records.byte_of_lt (show k + 1 < l.length by omega), Records.byte_of_lt (show k + 2 < l.length by omega),
      Records.byte_of_lt (show k + 3 < l.length by omega), List.drop_eq_getElem_cons (show k < l.length by omega),
      List.drop_eq_getElem_cons (show k + 1 < l.length by omega),
      List.drop_eq_getElem_cons (show k + 1 + 1 < l.length by omega),
      List.drop_eq_getElem_cons (show k + 1 + 1 + 1 < l.length by omega)]
    rfl
  cases swapped with
  | false => exact hle
  | true =>
    show (le32 (byteSwap32 (u32 l k))).reverse = _
    rw [← hle]
    obtain ⟨h₀, h₁, h₂, h₃⟩ := word32_bytes (u32 l k >>> 24).toUInt8 (u32 l k >>> 16).toUInt8
      (u32 l k >>> 8).toUInt8 (u32 l k).toUInt8
    unfold le32 byteSwap32
    rw [h₀, h₁, h₂, h₃]
    rfl

end Words
