import Mathlib.Data.Int.Notation
import Libreac.HeadampTx

/-!
# The grant sweep

`reac_grant.c` and the sweep builder of `reac_ctrlblk.c`. A box announces the head-amp base of its
chassis and its input width; `grantAllocate` admits them when the slots fit the head-amp space. The
enrolment sweep then carries one record for each parameter of each allocated channel (group A)
around the fixed head rows and the six group-B records.
-/

namespace Libreac

/-- `REAC_GRANT_MAX_WIDTH`. -/
def grantMaxWidth : ℕ := 40

/-- `REAC_HEADAMP_CEILING`: the last head-amp slot. -/
def headampCeiling : ℕ := 47

/-- `REAC_GRANT_SWEEP_LEN`. -/
def grantSweepLen (w : ℕ) : ℕ := 8 + w * 3

/-- `struct reac_grant_alloc`. Width zero stands for no box; what is allocated fits. -/
structure GrantAlloc where
  base : ℕ
  width : ℕ
  fits : width ≤ grantMaxWidth ∧ base + width ≤ headampCeiling + 1
  deriving DecidableEq

/-- No box. -/
def GrantAlloc.none : GrantAlloc := ⟨0, 0, by decide⟩

/-- `reac_grant_alloc_fits`. -/
def grantAllocFits (base width : ℤ) : Bool :=
  if width ≤ 0 ∨ (grantMaxWidth : ℤ) < width then false
  else if base < 0 then false
  else base + width - 1 ≤ headampCeiling

theorem grantAllocFits_iff {base width : ℤ} :
    grantAllocFits base width = true ↔
      0 < width ∧ width ≤ grantMaxWidth ∧ 0 ≤ base ∧ base + width ≤ headampCeiling + 1 := by
  unfold grantAllocFits
  by_cases hw : width ≤ 0 ∨ (grantMaxWidth : ℤ) < width
  · rw [if_pos hw]
    simp only [Bool.false_eq_true, false_iff]
    omega
  · rw [if_neg hw]
    by_cases hb : base < 0
    · rw [if_pos hb]
      simp only [Bool.false_eq_true, false_iff]
      omega
    · rw [if_neg hb, decide_eq_true_iff]
      omega

/-- `reac_grant_allocate`. -/
def grantAllocate (base inCh : ℤ) : Option GrantAlloc :=
  if inCh ≤ 0 ∨ (grantMaxWidth : ℤ) < inCh then none
  else if h : grantAllocFits base inCh = true then
    some ⟨base.toNat, inCh.toNat, by have := grantAllocFits_iff.mp h; omega⟩
  else none

/-! ## The rows of the sweep -/

/-- `headamp_args_ok`. -/
def headampArgsOk (param : ℕ) (value : UInt8) : Bool :=
  match param with
  | 0 | 1 => value ≤ 0x01
  | 2 => value ≤ 0x37
  | _ => false

/-- `TMPL_HEADAMP` under the type word `cd ea`, with the argument window filled in. -/
def tmplHeadamp (ch param value : UInt8) : Template :=
  #v[0xcd, 0xea,
    0x04, 0x03, 0x00, 0x13, 0x00, 0x02, 0x00, 0xfe,
    0x13 - 5, 0xf0, 0x41, 0x0a, 0x00, 0x00, 0x12, 0x12,
    0x01, 0x01, ch, param, value, 0x00, 0xf7, 0x00,
    0x00, 0x00, 0x00, 0x00, 0x00, 0x00, 0x00, 0x00]

/-- `reac_ctrl_record_cksum_stamp` on the six-byte record `[18:24]` of a head-amp template. -/
def recordCksumStamp (t : Template) : Template :=
  t.set 23 ((0x80 - (byteSum (fun i => t.byte (18 + i)) 5 &&& 0x7f)) &&& 0x7f)

/-- `reac_ctrl_stamp_headamp`: the record checksum is one of the bytes the block checksum covers,
so it goes first. -/
def stampHeadamp (ch param : ℕ) (value : UInt8) : Option Template :=
  if headampArgsOk param value then
    some (stampBlockCksum (recordCksumStamp (tmplHeadamp ch.toUInt8 param.toUInt8 value)))
  else none

/-- `GRANT_HEAD_ACK`: the master's answer to the box's join. -/
def grantHeadAck : Template :=
  #v[0xcd, 0xea, 0x04, 0x03, 0x00, 0x14, 0x00, 0x02, 0x00, 0xfe, 0x0f, 0xf0,
    0x41, 0x0a, 0x00, 0x00, 0x12, 0x12, 0x01, 0x00, 0x06, 0x00, 0x01, 0x00,
    0x78, 0xf7, 0x00, 0x00, 0x00, 0x00, 0x00, 0x00, 0x00, 0x00]

/-- `GRANT_HEAD_MARK`: the marker in front of group B. -/
def grantHeadMark : Template :=
  #v[0xcd, 0xea, 0x04, 0x03, 0x00, 0x14, 0x00, 0x02, 0x00, 0xfe, 0x0f, 0xf0,
    0x41, 0x0a, 0x00, 0x00, 0x12, 0x12, 0x00, 0x00, 0x03, 0x00, 0x00, 0x00,
    0x7d, 0xf7, 0x00, 0x00, 0x00, 0x00, 0x00, 0x00, 0x00, 0x00]

/-- The shape the six rows of `GRANT_GROUPB` share. -/
def groupbRow (ch sub val cksum : UInt8) : Template :=
  #v[0xcd, 0xea, 0x04, 0x03, 0x00, 0x13, 0x00, 0x02, 0x00, 0xfe, 0x0e, 0xf0,
    0x41, 0x0a, 0x00, 0x00, 0x12, 0x11, 0x05, 0x00, ch, sub, val, cksum,
    0xf7, 0x00, 0x00, 0x00, 0x00, 0x00, 0x00, 0x00, 0x00, 0x03]

/-- `GRANT_GROUPB`: the six identity requests, the same for every box. -/
def grantGroupb : List Template :=
  [groupbRow 0x00 0x00 0x04 0x77, groupbRow 0x06 0x00 0x08 0x6d, groupbRow 0x10 0x00 0x11 0x5a,
    groupbRow 0x10 0x11 0x09 0x51, groupbRow 0x11 0x00 0x11 0x59, groupbRow 0x11 0x11 0x09 0x50]

/-- `REAC_GRANT_GROUPB_LEN`. -/
def groupbLen : ℕ := 6

/-- `reac_ctrl_identity_poll_block`. -/
def identityPollBlock (i : ℕ) : Option Template := grantGroupb[i]?

/-- The three `put_groupa` rows of channel `base + c`. -/
def groupaRows (base : ℕ) (values : ℕ → UInt8) (c : ℕ) : Option (List Template) :=
  (List.range headampNparams).mapM fun p => stampHeadamp (base + c) p (values (c * headampNparams + p))

/-- `reac_ctrl_build_grant_sweep`: the first channel's records ride between the head rows, group B
follows, and then the rest of group A. -/
def buildGrantSweep (max base width : ℕ) (values : ℕ → UInt8) : Option (List Template) :=
  if width = 0 ∨ headampMaxCh < base + width ∨ max < grantSweepLen width then none
  else do
    let first ← groupaRows base values 0
    let rest ← (List.range' 1 (width - 1)).mapM (groupaRows base values)
    return [grantHeadAck] ++ first ++ [grantHeadMark] ++ grantGroupb ++ rest.flatten

/-- `reac_grant_build_sweep`, with `max` = `REAC_GRANT_SWEEP_MAX`: the operator's value where there
is one, the enrolling default where there is none. -/
def grantBuildSweep (alloc : GrantAlloc) (tx : Option HeadampTx) : Option (List Template) :=
  if !grantAllocFits alloc.base alloc.width then none
  else
    buildGrantSweep (grantSweepLen grantMaxWidth) alloc.base alloc.width fun i =>
      headampTxEffective tx (alloc.base + i / headampNparams) (i % headampNparams)

/-- The head-amp channel a block addresses: the record `12 12 01 01` names one, no other does. -/
def groupaChannel (t : Template) : Option ℕ :=
  if t.byte 16 = 0x12 ∧ t.byte 17 = 0x12 ∧ t.byte 18 = 0x01 ∧ t.byte 19 = 0x01 then
    some (t.byte 20).toNat
  else none

end Libreac
