import Libreac.Pcap

/-!
# Proofs: the reader yields the capture

A file behind its header is a row of records and a rest that is none (`CaptureSplit`): the file ends
between two records just if the rest is empty. The calls up to the first that hands no frame back
(`PcapWalk`) yield the records that fit the buffer, and count those that do not.
-/

namespace Libreac

open Words (bytes32)

/-- A record of a capture. -/
structure PcapRecord where
  sec : UInt32
  usec : UInt32
  origLen : UInt32
  body : List UInt8
  fits : body.length < 4294967296

namespace PcapRecord

/-- The header of a record. -/
def head (swapped : Bool) (r : PcapRecord) : List UInt8 :=
  bytes32 swapped r.sec ++ bytes32 swapped r.usec ++ bytes32 swapped (UInt32.ofNat r.body.length) ++
    bytes32 swapped r.origLen

def encode (swapped : Bool) (r : PcapRecord) : List UInt8 := r.head swapped ++ r.body

/-- A frame with a tag in front of its type. -/
def tagged (r : PcapRecord) : Bool :=
  18 ≤ r.body.length && byteAt r.body 12 == 0x81 && byteAt r.body 13 == 0x00

end PcapRecord

/-- What a caller gets of a record: the frame without its tag, the time and the tag. -/
structure PcapGiven where
  frame : List UInt8
  tsUsec : ℕ
  vlan : Option UInt16
  deriving DecidableEq

namespace PcapRecord

/-- What is to be handed back of a record. -/
def given (r : PcapRecord) : PcapGiven where
  frame := if r.tagged then r.body.take 12 ++ r.body.drop 16 else r.body
  tsUsec := r.sec.toNat * 1000000 + r.usec.toNat
  vlan :=
    if r.tagged then
      some (((byteAt r.body 14).toUInt16 <<< 8 ||| (byteAt r.body 15).toUInt16) &&& 0x0fff)
    else none

/-- The buffer takes the record. -/
def kept (cap : UInt64) (r : PcapRecord) : Bool := 0 < r.body.length && r.body.length ≤ cap.toNat

end PcapRecord

/-- The length in the header at the front of `f`. -/
def inclOf (swapped : Bool) (f : List UInt8) : ℕ := (rdU32 (f.take 16) 8 swapped).toNat

/-- A file is cut inside a header or inside a body, or it ends before either. -/
def CutShort (swapped : Bool) (rest : List UInt8) : Prop :=
  rest.length < 16 ∨ rest.length < 16 + inclOf swapped rest

/-- The records of a file behind its header, and what is left of it. -/
structure CaptureSplit (swapped : Bool) (body : List UInt8) (records : List PcapRecord)
    (rest : List UInt8) : Prop where
  eq : body = records.flatMap (PcapRecord.encode swapped) ++ rest
  cut : CutShort swapped rest

/-- How many records do not fit the buffer, one whose body is cut among them. -/
def oversized (cap : UInt64) (swapped : Bool) (records : List PcapRecord) (rest : List UInt8) : ℕ :=
  records.countP (fun r => cap.toNat < r.body.length) +
    if 16 ≤ rest.length ∧ cap.toNat < inclOf swapped rest then 1 else 0

/-- The tag of the frame that was handed back last. -/
def PcapSource.vlan (ps : PcapSource) : Option UInt16 :=
  if ps.lastVlanTagged then some ps.lastVlanId else none

/-- The calls up to the first that does not return a positive number. -/
inductive PcapWalk (cap : UInt64) : PcapSource → List PcapGiven → PcapRead → PcapSource → Prop
  | last {ps ps' : PcapSource} {read : PcapRead} (hnext : pcapSourceNext ps cap = (ps', read))
      (hret : read.ret ≤ 0) : PcapWalk cap ps [] read ps'
  | frame {ps ps' ps'' : PcapSource} {buf : List UInt8} {tsUsec : UInt64} {given : List PcapGiven}
      {read : PcapRead} (hnext : pcapSourceNext ps cap = (ps', .frame buf tsUsec))
      (hret : 0 < (PcapRead.frame buf tsUsec).ret) (hrest : PcapWalk cap ps' given read ps'') :
      PcapWalk cap ps (⟨buf, tsUsec.toNat, ps'.vlan⟩ :: given) read ps''

/-- The header of a capture in either byte order. -/
structure PcapHeader (swapped : Bool) (header : List UInt8) : Prop where
  length : header.length = 24
  magic : header.take 4 = bytes32 swapped pcapMagic

/-- What a walk yields, ends with and leaves in the counter. -/
def CaptureRead (cap : UInt64) (ps : PcapSource) (swapped : Bool) (records : List PcapRecord)
    (rest : List UInt8) : Prop :=
  ∃ ps', PcapWalk cap ps ((records.filter (PcapRecord.kept cap)).map PcapRecord.given)
      (if rest = [] then .eof else .error) ps' ∧
    ps'.skippedOversized = UInt32.ofNat (oversized cap swapped records rest)

/-! ## Reading past a body -/

section Discard

variable {cap : UInt64} {left : UInt32} {f : List UInt8}

theorem discardChunk_pos (hcap : 0 < cap.toNat) (hleft : left ≠ 0) : 0 < (discardChunk cap left).toNat := by
  have hne : left.toNat ≠ 0 := fun hzero => hleft (UInt32.toNat_inj.mp hzero)
  rw [discardChunk_toNat]
  omega

/-- A piece that is there is read. -/
theorem discardChunk_there (hcap : 0 < cap.toNat) (hleft : left ≠ 0) :
    (discardChunk cap left = 0 ∨
      (f.take (discardChunk cap left).toNat).length ≠ (discardChunk cap left).toNat) ↔
        f.length < (discardChunk cap left).toNat := by
  have hpos := discardChunk_pos hcap hleft
  have hne : discardChunk cap left ≠ 0 := by
    intro hzero
    rw [hzero] at hpos
    exact Nat.lt_irrefl 0 hpos
  rw [List.length_take]
  constructor
  · rintro (hzero | hshort)
    · exact absurd hzero hne
    · omega
  · intro hshort
    exact .inr (by omega)

/-- A body that is there is read past. -/
theorem pcapDiscard_all (hcap : 0 < cap.toNat) (hall : left.toNat ≤ f.length) :
    pcapDiscard cap left f = (f.drop left.toNat, true) := by
  induction left, f using pcapDiscard.induct cap with
  | case1 f =>
    unfold pcapDiscard
    rw [if_pos rfl]
    rfl
  | case2 left f hleft chunk hchunk =>
    have hshort := (discardChunk_there hcap hleft).mp hchunk
    rw [discardChunk_toNat] at hshort
    omega
  | case3 left f hleft chunk hchunk ih =>
    have hsub : (left - chunk.toUInt32).toNat = left.toNat - chunk.toNat := discardChunk_sub cap left
    have hmin : chunk.toNat = min left.toNat cap.toNat := discardChunk_toNat cap left
    have hthere : ¬ f.length < chunk.toNat := fun hshort => hchunk ((discardChunk_there hcap hleft).mpr hshort)
    unfold pcapDiscard
    rw [if_neg hleft]
    dsimp only
    rw [if_neg hchunk, ih (by rw [hsub, List.length_drop]; omega), hsub, List.drop_drop]
    congr 2
    omega

/-- One that is cut is not. -/
theorem pcapDiscard_cut (hcap : 0 < cap.toNat) (hcut : f.length < left.toNat) :
    (pcapDiscard cap left f).2 = false := by
  induction left, f using pcapDiscard.induct cap with
  | case1 f => exact absurd hcut (Nat.not_lt_zero _)
  | case2 left f hleft chunk hchunk =>
    unfold pcapDiscard
    rw [if_neg hleft]
    dsimp only
    rw [if_pos hchunk]
  | case3 left f hleft chunk hchunk ih =>
    have hsub : (left - chunk.toUInt32).toNat = left.toNat - chunk.toNat := discardChunk_sub cap left
    have hthere : ¬ f.length < chunk.toNat := fun hshort => hchunk ((discardChunk_there hcap hleft).mpr hshort)
    unfold pcapDiscard
    rw [if_neg hleft]
    dsimp only
    rw [if_neg hchunk]
    refine ih ?_
    rw [hsub, List.length_drop]
    omega

end Discard

/-! ## Records in the file -/

section Layout

variable {swapped : Bool} {r : PcapRecord} {f more : List UInt8}

@[simp] theorem head_length (swapped : Bool) (r : PcapRecord) : (r.head swapped).length = 16 := by
  simp [PcapRecord.head]

/-- The fields of a header, as the reader finds them. -/
theorem head_fields (swapped : Bool) (r : PcapRecord) :
    rdU32 (r.head swapped) 0 swapped = r.sec ∧ rdU32 (r.head swapped) 4 swapped = r.usec ∧
      rdU32 (r.head swapped) 8 swapped = UInt32.ofNat r.body.length ∧
      rdU32 (r.head swapped) 12 swapped = r.origLen := by
  have hfield : ∀ (v : UInt32) (pre rest : List UInt8) (k : ℕ), pre.length = k →
      rdU32 (pre ++ bytes32 swapped v ++ rest) k swapped = v := by
    rintro v pre rest _ rfl
    exact Words.u32_bytes32 swapped v pre rest
  unfold PcapRecord.head
  refine ⟨?_, ?_, ?_, ?_⟩
  · have h := hfield r.sec [] (bytes32 swapped r.usec ++ (bytes32 swapped (UInt32.ofNat r.body.length) ++
      bytes32 swapped r.origLen)) 0 rfl
    rw [List.nil_append] at h
    rw [List.append_assoc, List.append_assoc]
    exact h
  · have h := hfield r.usec (bytes32 swapped r.sec)
      (bytes32 swapped (UInt32.ofNat r.body.length) ++ bytes32 swapped r.origLen) 4 (Words.bytes32_length ..)
    rw [List.append_assoc (bytes32 swapped r.sec ++ _)]
    exact h
  · exact hfield _ _ _ 8 (by simp)
  · have h := hfield r.origLen (bytes32 swapped r.sec ++ bytes32 swapped r.usec ++
      bytes32 swapped (UInt32.ofNat r.body.length)) [] 12 (by simp)
    rw [List.append_nil] at h
    exact h

theorem encode_take (swapped : Bool) (r : PcapRecord) (more : List UInt8) :
    (r.encode swapped ++ more).take 16 = r.head swapped := by
  unfold PcapRecord.encode
  rw [List.append_assoc, List.take_left' (head_length swapped r)]

theorem encode_drop (swapped : Bool) (r : PcapRecord) (more : List UInt8) :
    (r.encode swapped ++ more).drop 16 = r.body ++ more := by
  unfold PcapRecord.encode
  rw [List.append_assoc, List.drop_left' (head_length swapped r)]

theorem incl_toNat (r : PcapRecord) : (UInt32.ofNat r.body.length).toNat = r.body.length := by
  rw [UInt32.toNat_ofNat']
  exact Nat.mod_eq_of_lt r.fits

/-- What is not cut short starts with a record. -/
theorem front_record (h : ¬ CutShort swapped f) : ∃ r more, f = PcapRecord.encode swapped r ++ more := by
  unfold CutShort inclOf at h
  obtain ⟨h16, hall⟩ := not_or.mp h
  have hph : (f.take 16).length = 16 := by
    rw [List.length_take]
    omega
  have hincl := (rdU32 (f.take 16) 8 swapped).toNat_lt
  have hbody : ((f.drop 16).take (rdU32 (f.take 16) 8 swapped).toNat).length =
      (rdU32 (f.take 16) 8 swapped).toNat := by
    rw [List.length_take, List.length_drop]
    omega
  refine ⟨⟨rdU32 (f.take 16) 0 swapped, rdU32 (f.take 16) 4 swapped, rdU32 (f.take 16) 12 swapped,
    (f.drop 16).take (rdU32 (f.take 16) 8 swapped).toNat, by omega⟩,
    (f.drop 16).drop (rdU32 (f.take 16) 8 swapped).toNat, ?_⟩
  have hfield : ∀ k, k + 4 ≤ 16 →
      bytes32 swapped (rdU32 (f.take 16) k swapped) = ((f.take 16).drop k).take 4 :=
    fun k hk => Words.bytes32_u32 swapped (by omega)
  have hhead : bytes32 swapped (rdU32 (f.take 16) 0 swapped) ++ bytes32 swapped (rdU32 (f.take 16) 4 swapped) ++
      bytes32 swapped (rdU32 (f.take 16) 8 swapped) ++ bytes32 swapped (rdU32 (f.take 16) 12 swapped) =
        f.take 16 := by
    rw [hfield 0 (by omega), hfield 4 (by omega), hfield 8 (by omega), hfield 12 (by omega)]
    have hpiece : ∀ (l : List UInt8) (k : ℕ), l.take k ++ (l.drop k).take 4 = l.take (k + 4) := by
      intro l k
      rw [List.take_add]
    rw [List.drop_zero, hpiece _ 4, hpiece _ 8, hpiece _ 12]
    exact List.take_of_length_le (le_of_eq hph)
  unfold PcapRecord.encode PcapRecord.head
  dsimp only
  rw [hbody, UInt32.ofNat_toNat, hhead, List.append_assoc, List.take_append_drop, List.take_append_drop]

end Layout

/-! ## One call -/

section Scan

variable {cap : UInt64} {ps : PcapSource} {f more : List UInt8} {r : PcapRecord}

/-- The loop, once there is a header. -/
theorem pcapScan_header (h : 16 ≤ f.length) :
    pcapScan cap ps f =
      if rdU32 (f.take 16) 8 ps.swapped = 0 then pcapScan cap ps (f.drop 16)
      else
        let skipped := { ps with
          lastOrigLen := rdU32 (f.take 16) 12 ps.swapped, skippedOversized := ps.skippedOversized + 1 }
        let kept := { ps with
          lastOrigLen := rdU32 (f.take 16) 12 ps.swapped
          f := some ((f.drop 16).drop (rdU32 (f.take 16) 8 ps.swapped).toNat) }
        let d := pcapDiscard cap (rdU32 (f.take 16) 8 ps.swapped) (f.drop 16)
        let buf := (f.drop 16).take (rdU32 (f.take 16) 8 ps.swapped).toNat
        if cap < (rdU32 (f.take 16) 8 ps.swapped).toUInt64 then
          if d.2 then pcapScan cap skipped d.1 else ({ skipped with f := some d.1 }, .error)
        else if buf.length ≠ (rdU32 (f.take 16) 8 ps.swapped).toNat then (kept, .error)
        else
          pcapKeep kept buf
            ((rdU32 (f.take 16) 0 ps.swapped).toUInt64 * 1000000 +
              (rdU32 (f.take 16) 4 ps.swapped).toUInt64) := by
  have hph : (f.take 16).length = 16 := by
    rw [List.length_take]
    omega
  conv_lhs => unfold pcapScan
  dsimp only
  rw [if_neg (by omega), if_neg (by omega)]

/-- Without one it ends. -/
theorem pcapScan_headerless (h : ¬ 16 ≤ f.length) :
    pcapScan cap ps f = ({ ps with f := some (f.drop 16) }, if f = [] then .eof else .error) := by
  unfold pcapScan
  dsimp only
  rw [List.length_take]
  by_cases hnil : f = []
  · have hzero : min 16 f.length = 0 := by
      rw [hnil]
      rfl
    rw [if_pos hzero, if_pos hnil]
  · have hpos := List.length_pos_of_ne_nil hnil
    rw [if_neg (by omega), if_pos (by omega), if_neg hnil]

theorem over_iff (cap : UInt64) (incl : UInt32) : cap < incl.toUInt64 ↔ cap.toNat < incl.toNat := by
  rw [UInt64.lt_iff_toNat_lt, UInt32.toNat_toUInt64]

theorem encode_header (swapped : Bool) (r : PcapRecord) (more : List UInt8) :
    16 ≤ (r.encode swapped ++ more).length := by
  unfold PcapRecord.encode
  rw [List.length_append, List.length_append, head_length]
  omega

/-- An empty record is as if it were not there. -/
theorem pcapScan_empty (hbody : r.body = []) :
    pcapScan cap ps (r.encode ps.swapped ++ more) = pcapScan cap ps more := by
  obtain ⟨-, -, hincl, -⟩ := head_fields ps.swapped r
  rw [pcapScan_header (encode_header _ r more), encode_take, encode_drop, hincl, hbody]
  exact if_pos rfl

theorem incl_ne (hbody : r.body ≠ []) : UInt32.ofNat r.body.length ≠ 0 := by
  intro hzero
  have hlen := incl_toNat r
  rw [hzero] at hlen
  exact hbody (List.eq_nil_of_length_eq_zero hlen.symm)

/-- One that does not fit is counted. -/
theorem pcapScan_over (hcap : 0 < cap.toNat) (hover : cap.toNat < r.body.length) :
    pcapScan cap ps (r.encode ps.swapped ++ more) =
      pcapScan cap { ps with lastOrigLen := r.origLen, skippedOversized := ps.skippedOversized + 1 } more := by
  obtain ⟨-, -, hincl, horig⟩ := head_fields ps.swapped r
  have hbody : r.body ≠ [] := by
    rintro hnil
    rw [hnil] at hover
    exact Nat.not_lt_zero _ hover
  have hdiscard : pcapDiscard cap (UInt32.ofNat r.body.length) (r.body ++ more) = (more, true) := by
    rw [pcapDiscard_all hcap (by rw [incl_toNat, List.length_append]; omega), incl_toNat, List.drop_left]
  rw [pcapScan_header (encode_header _ r more), encode_take, encode_drop, hincl, horig, if_neg (incl_ne hbody)]
  dsimp only
  rw [if_pos ((over_iff _ _).mpr (by rw [incl_toNat]; exact hover)), hdiscard]
  exact if_pos rfl

/-- One that fits is handed back. -/
theorem pcapScan_kept (hbody : r.body ≠ []) (hfits : r.body.length ≤ cap.toNat) :
    pcapScan cap ps (r.encode ps.swapped ++ more) =
      pcapKeep { ps with lastOrigLen := r.origLen, f := some more } r.body
        (r.sec.toUInt64 * 1000000 + r.usec.toUInt64) := by
  obtain ⟨hsec, husec, hincl, horig⟩ := head_fields ps.swapped r
  rw [pcapScan_header (encode_header _ r more), encode_take, encode_drop, hincl, horig, hsec, husec,
    if_neg (incl_ne hbody)]
  dsimp only
  rw [if_neg (by rw [over_iff, incl_toNat]; exact Nat.not_lt.mpr hfits), incl_toNat, List.take_left,
    List.drop_left]
  exact if_neg (fun hne => hne rfl)

/-- What is kept of a record. -/
theorem pcapKeep_given (ps : PcapSource) (r : PcapRecord) (hbody : r.body ≠ []) :
    ∃ ps' buf tsUsec, pcapKeep ps r.body (r.sec.toUInt64 * 1000000 + r.usec.toUInt64) =
        (ps', .frame buf tsUsec) ∧
      r.given = ⟨buf, tsUsec.toNat, ps'.vlan⟩ ∧ buf ≠ [] ∧
      ps'.f = ps.f ∧ ps'.swapped = ps.swapped ∧ ps'.skippedOversized = ps.skippedOversized := by
  have hts : (r.sec.toUInt64 * 1000000 + r.usec.toUInt64).toNat = r.sec.toNat * 1000000 + r.usec.toNat := by
    have hsec := r.sec.toNat_lt
    have husec := r.usec.toNat_lt
    rw [UInt64.toNat_add, UInt64.toNat_mul, UInt32.toNat_toUInt64, UInt32.toNat_toUInt64]
    show (r.sec.toNat * 1000000 % 2 ^ 64 + r.usec.toNat) % 2 ^ 64 = _
    omega
  have htagged : r.tagged = true ↔ 18 ≤ r.body.length ∧ byteAt r.body 12 = 0x81 ∧ byteAt r.body 13 = 0x00 := by
    unfold PcapRecord.tagged
    rw [Bool.and_eq_true, Bool.and_eq_true, decide_eq_true_iff, beq_iff_eq, beq_iff_eq, and_assoc]
  unfold pcapKeep PcapRecord.given
  by_cases htag : 18 ≤ r.body.length ∧ byteAt r.body 12 = 0x81 ∧ byteAt r.body 13 = 0x00
  · rw [if_pos htag, if_pos (htagged.mpr htag), if_pos (htagged.mpr htag)]
    refine ⟨_, _, _, rfl, by rw [hts]; rfl, ?_, rfl, rfl, rfl⟩
    refine List.ne_nil_of_length_pos ?_
    rw [List.length_append, List.length_take, List.length_drop]
    omega
  · rw [if_neg htag, if_neg (mt htagged.mp htag), if_neg (mt htagged.mp htag)]
    exact ⟨_, _, _, rfl, by rw [hts]; rfl, hbody, rfl, rfl, rfl⟩

/-- The end of the file is told from a cut, whose record may be one that does not fit. -/
theorem pcapScan_rest (hcap : 0 < cap.toNat) (hcut : CutShort ps.swapped f) :
    (pcapScan cap ps f).2 = (if f = [] then .eof else .error) ∧
      (pcapScan cap ps f).1.skippedOversized =
        ps.skippedOversized + UInt32.ofNat (oversized cap ps.swapped [] f) := by
  by_cases h16 : 16 ≤ f.length
  · have hne : f ≠ [] := List.ne_nil_of_length_pos (by omega)
    have hshort : f.length < 16 + (rdU32 (f.take 16) 8 ps.swapped).toNat := by
      rcases hcut with hcut | hcut
      · omega
      · exact hcut
    have hincl : rdU32 (f.take 16) 8 ps.swapped ≠ 0 := by
      intro hzero
      rw [hzero] at hshort
      exact absurd h16 (Nat.not_le.mpr hshort)
    have hlen : (f.drop 16).length < (rdU32 (f.take 16) 8 ps.swapped).toNat := by
      rw [List.length_drop]
      omega
    rw [if_neg hne, pcapScan_header h16, if_neg hincl]
    unfold oversized inclOf
    dsimp only
    by_cases hover : cap < (rdU32 (f.take 16) 8 ps.swapped).toUInt64
    · have hd := pcapDiscard_cut hcap hlen
      rw [if_pos hover, hd, if_neg Bool.false_ne_true, if_pos ⟨h16, (over_iff _ _).mp hover⟩]
      exact ⟨rfl, rfl⟩
    · rw [if_neg hover, if_pos (by rw [List.length_take]; omega), if_neg fun h => hover ((over_iff _ _).mpr h.2)]
      exact ⟨rfl, (UInt32.add_zero _).symm⟩
  · have hnone : oversized cap ps.swapped [] f = 0 := by
      unfold oversized
      rw [if_neg fun h => h16 h.1]
      rfl
    rw [hnone, pcapScan_headerless h16]
    split_ifs
    · exact ⟨rfl, (UInt32.add_zero _).symm⟩
    · exact ⟨rfl, (UInt32.add_zero _).symm⟩

end Scan

/-! ## All calls -/

section Walk

variable {cap : UInt64} {swapped : Bool} {rest : List UInt8}

theorem oversized_cons (cap : UInt64) (swapped : Bool) (r : PcapRecord) (records : List PcapRecord)
    (rest : List UInt8) :
    oversized cap swapped (r :: records) rest =
      oversized cap swapped records rest + if cap.toNat < r.body.length then 1 else 0 := by
  unfold oversized
  rw [List.countP_cons]
  simp only [decide_eq_true_eq]
  omega

/-- A call that is still to go over `records` starts the walk over them; induction on the records. -/
theorem pcapWalk_records (hcap : 0 < cap.toNat) (hcut : CutShort swapped rest) (records : List PcapRecord)
    {ps₀ ps : PcapSource} (hswapped : ps.swapped = swapped)
    (hnext : pcapSourceNext ps₀ cap =
      pcapScan cap ps (records.flatMap (PcapRecord.encode swapped) ++ rest)) :
    ∃ ps', PcapWalk cap ps₀ ((records.filter (PcapRecord.kept cap)).map PcapRecord.given)
        (if rest = [] then .eof else .error) ps' ∧
      ps'.skippedOversized = ps.skippedOversized + UInt32.ofNat (oversized cap swapped records rest) := by
  subst hswapped
  induction records generalizing ps₀ ps with
  | nil =>
    obtain ⟨hend, hskipped⟩ := pcapScan_rest hcap hcut
    refine ⟨_, .last (hnext.trans (Prod.ext rfl hend)) ?_, hskipped⟩
    split_ifs <;> decide
  | cons r records ih =>
    rw [List.flatMap_cons, List.append_assoc] at hnext
    have hcons := oversized_cons cap ps.swapped r records rest
    by_cases hempty : r.body = []
    · have hskip : PcapRecord.kept cap r = false := by simp [PcapRecord.kept, hempty]
      rw [pcapScan_empty hempty] at hnext
      obtain ⟨ps', hwalk, hcount⟩ := ih hcut hnext
      rw [List.filter_cons_of_neg (by rw [hskip]; exact Bool.false_ne_true)]
      rw [if_neg (by rw [hempty]; exact Nat.not_lt_zero _)] at hcons
      exact ⟨ps', hwalk, by rw [hcons]; exact hcount⟩
    · by_cases hover : cap.toNat < r.body.length
      · have hskip : PcapRecord.kept cap r = false := by
          simp only [PcapRecord.kept, Bool.and_eq_false_iff, decide_eq_false_iff_not]
          exact .inr (Nat.not_le.mpr hover)
        rw [pcapScan_over hcap hover] at hnext
        obtain ⟨ps', hwalk, hcount⟩ :=
          @ih _ { ps with lastOrigLen := r.origLen, skippedOversized := ps.skippedOversized + 1 } hcut hnext
        rw [List.filter_cons_of_neg (by rw [hskip]; exact Bool.false_ne_true)]
        refine ⟨ps', hwalk, ?_⟩
        rw [hcount, hcons, if_pos hover, UInt32.ofNat_add, UInt32.add_assoc]
        exact congrArg _ (UInt32.add_comm ..)
      · have hkept : PcapRecord.kept cap r = true := by
          have hpos := List.length_pos_of_ne_nil hempty
          simp only [PcapRecord.kept, Bool.and_eq_true, decide_eq_true_eq]
          omega
        rw [pcapScan_kept hempty (Nat.le_of_not_lt hover)] at hnext
        obtain ⟨ps₁, buf, tsUsec, hkeep, hgiven, hbuf, hf, hswapped, hskipped⟩ :=
          pcapKeep_given
            { ps with
              lastOrigLen := r.origLen
              f := some (records.flatMap (PcapRecord.encode ps.swapped) ++ rest) } r hempty
        have hnext₁ : pcapSourceNext ps₁ cap =
            pcapScan cap ps₁ (records.flatMap (PcapRecord.encode ps₁.swapped) ++ rest) := by
          unfold pcapSourceNext
          rw [hf, hswapped]
        obtain ⟨ps', hwalk, hcount⟩ := ih (by rw [hswapped]; exact hcut) hnext₁
        rw [List.filter_cons_of_pos hkept, List.map_cons, hgiven]
        refine ⟨ps', .frame (hnext.trans hkeep) ?_ hwalk, ?_⟩
        · exact Int.natCast_pos.mpr (List.length_pos_of_ne_nil hbuf)
        · rw [hcount, hcons, if_neg hover, hskipped, hswapped]
          rfl

end Walk

/-! ## Whole captures -/

/-- Every file behind its header is records and a rest that is none; induction on what is left. -/
theorem captureSplit_exists (swapped : Bool) (body : List UInt8) :
    ∃ records rest, CaptureSplit swapped body records rest := by
  induction hlen : body.length using Nat.strong_induction_on generalizing body with
  | _ n ih =>
    by_cases hcut : CutShort swapped body
    · exact ⟨[], body, rfl, hcut⟩
    · obtain ⟨r, more, rfl⟩ := front_record hcut
      have hheader := encode_header swapped r []
      rw [List.append_nil] at hheader
      obtain ⟨records, rest, hmore, hrest⟩ :=
        ih more.length (by rw [← hlen, List.length_append]; omega) more rfl
      exact ⟨r :: records, rest, by rw [hmore, List.flatMap_cons, List.append_assoc], hrest⟩

/-- A header opens the capture. -/
theorem pcapSourceOpen_header {swapped : Bool} {header : List UInt8} (h : PcapHeader swapped header)
    (body : List UInt8) :
    pcapSourceOpen (some (header ++ body)) = ({ f := some body, swapped }, true) := by
  obtain ⟨hlen, hmagic⟩ := h
  have hu32 : Records.u32 header 0 = if swapped then pcapMagicSwap else pcapMagic := by
    rw [← List.take_append_drop 4 header, hmagic]
    cases swapped with
    | false =>
      rw [show bytes32 false pcapMagic = [0xd4, 0xc3, 0xb2, 0xa1] by decide]
      exact (by decide : Records.word32 0xd4 0xc3 0xb2 0xa1 = pcapMagic)
    | true =>
      rw [show bytes32 true pcapMagic = [0xa1, 0xb2, 0xc3, 0xd4] by decide]
      exact (by decide : Records.word32 0xa1 0xb2 0xc3 0xd4 = pcapMagicSwap)
  unfold pcapSourceOpen
  dsimp only
  rw [List.take_left' hlen, List.drop_left' hlen, hu32, if_neg (fun hne => hne hlen)]
  cases swapped <;> rfl

/-- The reader yields the capture, and counts what does not fit the buffer modulo `2 ^ 32`. -/
theorem capture_read {swapped : Bool} {header : List UInt8} (h : PcapHeader swapped header)
    (body : List UInt8) (cap : UInt64) (hcap : 1 ≤ cap) :
    ∃ ps, pcapSourceOpen (some (header ++ body)) = (ps, true) ∧
      (∃ records rest, CaptureSplit swapped body records rest) ∧
      ∀ records rest, CaptureSplit swapped body records rest →
        CaptureRead cap ps swapped records rest := by
  refine ⟨_, pcapSourceOpen_header h body, captureSplit_exists swapped body, ?_⟩
  rintro records rest ⟨rfl, hcut⟩
  let ps : PcapSource := { f := some (records.flatMap (PcapRecord.encode swapped) ++ rest), swapped }
  obtain ⟨ps', hwalk, hcount⟩ :=
    @pcapWalk_records cap swapped rest (UInt64.le_iff_toNat_le.mp hcap) hcut records ps ps rfl rfl
  exact ⟨ps', hwalk, hcount.trans (UInt32.zero_add _)⟩

/-- The plainest header, in the order of the machine that wrote it. -/
def plainHeader : List UInt8 := [0xd4, 0xc3, 0xb2, 0xa1] ++ List.replicate 20 0

theorem plainHeader_ok : PcapHeader false plainHeader := ⟨rfl, by decide⟩

/-- A record that is complete, and one that is cut in its second byte. -/
def cutCapture : List UInt8 :=
  PcapRecord.encode false ⟨1, 5, 3, [7, 8, 9], by decide⟩ ++
    (PcapRecord.head false ⟨2, 6, 2, [4, 4], by decide⟩ ++ [4])

theorem capture_read_cut :
    ∃ ps, pcapSourceOpen (some (plainHeader ++ cutCapture)) = (ps, true) ∧
      (∃ records rest, CaptureSplit false cutCapture records rest) ∧
      ∀ records rest, CaptureSplit false cutCapture records rest → CaptureRead 3 ps false records rest :=
  capture_read plainHeader_ok cutCapture 3 (by decide)

/-- A record of two bytes. -/
def twoBytes : PcapRecord := ⟨0, 0, 2, [0, 0], by decide⟩

/-- A capture of such records alone, read into a buffer of one byte. -/
theorem walk_twoBytes (n : ℕ) :
    ∃ ps ps', pcapSourceOpen (some (plainHeader ++
        (List.replicate n twoBytes).flatMap (PcapRecord.encode false))) = (ps, true) ∧
      PcapWalk 1 ps [] .eof ps' ∧ ps'.skippedOversized = UInt32.ofNat n := by
  obtain ⟨ps, hopen, -, hread⟩ := capture_read plainHeader_ok
    ((List.replicate n twoBytes).flatMap (PcapRecord.encode false)) 1 (by decide)
  obtain ⟨ps', hwalk, hcount⟩ := hread (List.replicate n twoBytes) []
    ⟨(List.append_nil _).symm, .inl (Nat.succ_pos _)⟩
  have hkept : (List.replicate n twoBytes).filter (PcapRecord.kept 1) = [] := by
    rw [List.filter_eq_nil_iff]
    intro r hr
    rw [List.eq_of_mem_replicate hr]
    decide
  have hover : oversized 1 false (List.replicate n twoBytes) [] = n := by
    unfold oversized
    rw [List.countP_replicate]
    rfl
  rw [hkept] at hwalk
  rw [hover] at hcount
  exact ⟨ps, ps', hopen, hwalk, hcount⟩

/-- With `2 ^ 32` records that do not fit, the counter is back at 0. -/
theorem capture_count_wraps :
    ∃ ps ps', pcapSourceOpen (some (plainHeader ++
        (List.replicate 4294967296 twoBytes).flatMap (PcapRecord.encode false))) = (ps, true) ∧
      PcapWalk 1 ps [] .eof ps' ∧
      ps'.skippedOversized.toNat ≠
        (List.replicate 4294967296 twoBytes).countP fun r => 1 < r.body.length := by
  obtain ⟨ps, ps', hopen, hwalk, hcount⟩ := walk_twoBytes 4294967296
  refine ⟨ps, ps', hopen, hwalk, ?_⟩
  rw [hcount, List.countP_replicate]
  decide

end Libreac
