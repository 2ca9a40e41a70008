import Mathlib.Data.Int.Notation
import Mathlib.Data.Nat.Notation

/-!
# Bytes, addresses, integers and the two checksums

A frame is a list of bytes; `byteAt` reads it. The master keeps its control blocks as 34-byte
`[type | block]` templates (`Template`): the two type bytes and the 32-byte control block behind
them. Sums of bytes are taken modulo 256, which is all the source ever looks at.
-/

namespace Libreac

/-- An Ethernet address. -/
abbrev Mac := Vector UInt8 6

/-- The 32-byte control block `[18:50]` of a frame. -/
abbrev Block := Vector UInt8 32

/-- A 34-byte `[type | block]` template, `[16:50]` of a frame. -/
abbrev Template := Vector UInt8 34

/-- The all-zero address: no box. -/
def noMac : Mac := Vector.replicate 6 0

/-- The broadcast address. -/
def broadcastMac : Mac := Vector.replicate 6 0xff

/-- Byte `i` of a frame. -/
def byteAt (frame : List UInt8) (i : ℕ) : UInt8 := frame.getD i 0

/-- The address at offset `off` of a frame. -/
def macAt (frame : List UInt8) (off : ℕ) : Mac := Vector.ofFn fun i => byteAt frame (off + i)

/-- The control block of a frame. -/
def blockOf (frame : List UInt8) : Block := Vector.ofFn fun i => byteAt frame (18 + i)

/-- `memcpy` of `bs` over the frame at `off`. -/
def overwrite (frame : List UInt8) (off : ℕ) (bs : List UInt8) : List UInt8 :=
  frame.take off ++ bs ++ frame.drop (off + bs.length)

/-- Byte `i` of a template. -/
def Template.byte (t : Template) (i : ℕ) : UInt8 := t.getD i 0

/-- The value of an expression of type `int`: what does not fit wraps to 32 bits. The wrap is what the
machine instruction does; C leaves the overflow of a sum or a product undefined. -/
def wrapInt (x : ℤ) : ℤ := (x + 2147483648) % 4294967296 - 2147483648

theorem wrapInt_of_lt {x : ℤ} (hlow : -2147483648 ≤ x) (hhigh : x < 2147483648) : wrapInt x = x := by
  unfold wrapInt
  omega

theorem wrapInt_le {x : ℤ} (hlow : -2147483648 ≤ x) : wrapInt x ≤ x := by
  unfold wrapInt
  omega

theorem wrapInt_bounds (x : ℤ) : -2147483648 ≤ wrapInt x ∧ wrapInt x < 2147483648 := by
  unfold wrapInt
  omega

/-- The sum of the first `n` bytes of `f`, modulo 256. -/
def byteSum (f : ℕ → UInt8) : ℕ → UInt8
  | 0 => 0
  | n + 1 => byteSum f n + f n

/-- `reac_ctrl_block_cksum_stamp` on the block of a template: its last byte makes the 32 bytes sum
to zero. -/
def stampBlockCksum (t : Template) : Template :=
  t.set 33 (0 - byteSum (fun i => t.byte (2 + i)) 31)

/-- The block checksum of a template closes. -/
def Template.cksumOk (t : Template) : Prop := byteSum (fun i => t.byte (2 + i)) 32 = 0

instance (t : Template) : Decidable t.cksumOk := inferInstanceAs (Decidable (_ = _))

/-- `reac_ctrl_checksum_verify`: the control block of the frame sums to zero. -/
def checksumVerify (frame : List UInt8) : Bool := byteSum (fun i => byteAt frame (18 + i)) 32 == 0

/-- `reac_ctrl_record_cksum_verify`: the Roland checksum is seven bits wide. -/
def recordCksumVerify (rec : ℕ → UInt8) (n : ℕ) : Bool := byteSum rec n &&& 0x7f == 0

end Libreac
