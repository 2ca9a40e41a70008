import Mathlib.Data.List.Basic
import Mathlib.Tactic.IntervalCases
import Libreac.Grant
import Libreac.Proofs.BytesProofs

/-!
# Proofs: the allocator and the sweep

A sweep over an admitted allocation never fails, has `8 + 3 * width` rows, and addresses exactly the
allocated channels. Callers use `IsSweep` and never look at the rows themselves.
-/

namespace Libreac

theorem grantAllocate_eq_some {base inCh : ℤ} {a : GrantAlloc} (h : grantAllocate base inCh = some a) :
    (a.base : ℤ) = base ∧ (a.width : ℤ) = inCh ∧ 0 < a.width := by
  unfold grantAllocate at h
  split_ifs at h with h₁ h₂
  have hf := grantAllocFits_iff.mp h₂
  obtain rfl := Option.some.inj h
  simp only
  omega

theorem grantAllocate_self {a : GrantAlloc} (h : 0 < a.width) :
    grantAllocate a.base a.width = some a := by
  obtain ⟨hw, hb⟩ := a.fits
  have hfits : grantAllocFits a.base a.width = true := grantAllocFits_iff.mpr (by omega)
  unfold grantAllocate
  rw [if_neg (by omega), dif_pos hfits]
  rfl

theorem grantAllocate_zero (base : ℤ) : grantAllocate base 0 = none := by
  simp [grantAllocate]

/-- An admitted width fits the byte it is announced in. -/
theorem width_toUInt8 (a : GrantAlloc) : a.width.toUInt8.toNat = a.width := by
  have hfits := a.fits.1
  unfold grantMaxWidth at hfits
  simp only [Nat.toUInt8, UInt8.toNat_ofNat']
  omega

theorem width_toUInt8_ne_zero {a : GrantAlloc} (h : 0 < a.width) : a.width.toUInt8 ≠ 0 := by
  intro hzero
  have := width_toUInt8 a
  rw [hzero] at this
  simp at this
  omega

/-! ## The rows -/

/-- Every value a scene carries is legal for its parameter. -/
theorem headampArgsOk_effective (tx : Option HeadampTx) (ch : ℕ) {param : ℕ}
    (h : param < headampNparams) : headampArgsOk param (headampTxEffective tx ch param) = true := by
  have hdefault : headampArgsOk param (headampDefault param) = true := by
    unfold headampNparams at h
    interval_cases param <;> rfl
  have hok : ∀ v, headampArgsOk param v = paramValueOk param v := fun _ => rfl
  unfold headampTxEffective
  rw [if_neg (by omega)]
  cases tx with
  | none => exact hdefault
  | some t =>
    dsimp only
    split_ifs with hset
    · rw [hok]
      exact t.valid _ _ hset.2
    · exact hdefault

/-- The row of one parameter of one channel. -/
def groupaRow (tx : Option HeadampTx) (ch param : ℕ) : Template :=
  stampBlockCksum (recordCksumStamp
    (tmplHeadamp ch.toUInt8 param.toUInt8 (headampTxEffective tx ch param)))

/-- The two checksums of a head-amp block lie behind its record. -/
theorem byte_recordStamped (t : Template) {i : ℕ} (h : i < 23) :
    (stampBlockCksum (recordCksumStamp t)).byte i = t.byte i := by
  rw [byte_stampBlockCksum _ (by omega), byte_of_lt _ (by omega), byte_of_lt _ (by omega)]
  simp [recordCksumStamp, show (23 : ℕ) ≠ i by omega]

theorem groupaChannel_groupaRow (tx : Option HeadampTx) {ch : ℕ} (param : ℕ) (h : ch < 256) :
    groupaChannel (groupaRow tx ch param) = some ch := by
  unfold groupaChannel groupaRow
  rw [byte_recordStamped _ (by omega), byte_recordStamped _ (by omega),
    byte_recordStamped _ (by omega), byte_recordStamped _ (by omega),
    byte_recordStamped _ (by omega)]
  simp only [byte_of_lt _ (show 16 < 34 by omega), byte_of_lt _ (show 17 < 34 by omega),
    byte_of_lt _ (show 18 < 34 by omega), byte_of_lt _ (show 19 < 34 by omega),
    byte_of_lt _ (show 20 < 34 by omega)]
  simp [tmplHeadamp, Nat.mod_eq_of_lt h]

theorem groupaRows_eq (tx : Option HeadampTx) (base c : ℕ) :
    groupaRows base (fun i => headampTxEffective tx (base + i / headampNparams) (i % headampNparams))
      c = some [groupaRow tx (base + c) 0, groupaRow tx (base + c) 1, groupaRow tx (base + c) 2] := by
  have hrow : ∀ p < headampNparams, stampHeadamp (base + c) p
      (headampTxEffective tx (base + (c * headampNparams + p) / headampNparams)
        ((c * headampNparams + p) % headampNparams)) = some (groupaRow tx (base + c) p) := by
    intro p hp
    have hdiv : (c * headampNparams + p) / headampNparams = c := by
      unfold headampNparams at hp ⊢; omega
    have hmod : (c * headampNparams + p) % headampNparams = p := by
      unfold headampNparams at hp ⊢; omega
    rw [hdiv, hmod, stampHeadamp, if_pos (headampArgsOk_effective tx _ hp)]
    rfl
  have h0 := hrow 0 (by decide)
  have h1 := hrow 1 (by decide)
  have h2 := hrow 2 (by decide)
  rw [groupaRows, show headampNparams = 3 from rfl] at *
  simp only [show List.range 3 = [0, 1, 2] from rfl, List.mapM_cons, List.mapM_nil, h0, h1, h2]
  rfl

/-! ## The sweep -/

/-- `rows` is a sweep over the allocation `a`, for some state of the head-amp table. -/
def IsSweep (a : GrantAlloc) (rows : List Template) : Prop := ∃ tx, grantBuildSweep a tx = some rows

/-- The three group-A rows of channel `ch`. -/
def channelRows (tx : Option HeadampTx) (ch : ℕ) : List Template :=
  [groupaRow tx ch 0, groupaRow tx ch 1, groupaRow tx ch 2]

theorem grantBuildSweep_eq {a : GrantAlloc} (h : 0 < a.width) (tx : Option HeadampTx) :
    grantBuildSweep a tx = some ([grantHeadAck] ++ channelRows tx a.base ++ [grantHeadMark] ++
      grantGroupb ++ (List.range' 1 (a.width - 1)).flatMap fun c => channelRows tx (a.base + c)) := by
  obtain ⟨hw, hb⟩ := a.fits
  have hfits : grantAllocFits a.base a.width = true := grantAllocFits_iff.mpr (by omega)
  unfold grantMaxWidth at hw
  unfold headampCeiling at hb
  have hrows := fun c => groupaRows_eq tx a.base c
  have hmap : ∀ l : List ℕ, l.mapM (groupaRows a.base fun i =>
      headampTxEffective tx (a.base + i / headampNparams) (i % headampNparams))
      = some (l.map fun c => channelRows tx (a.base + c)) := by
    intro l
    rw [show (groupaRows a.base fun i =>
      headampTxEffective tx (a.base + i / headampNparams) (i % headampNparams))
      = fun c => pure (channelRows tx (a.base + c)) from funext hrows, List.mapM_pure]
    rfl
  rw [grantBuildSweep, hfits, buildGrantSweep]
  simp only [Bool.not_true, Bool.false_eq_true, if_false]
  rw [if_neg (by unfold headampMaxCh grantSweepLen grantMaxWidth; omega), hrows 0, hmap]
  simp [channelRows, List.flatMap]

theorem grantBuildSweep_none {a : GrantAlloc} (h : a.width = 0) (tx : Option HeadampTx) :
    grantBuildSweep a tx = none := by
  simp [grantBuildSweep, grantAllocFits, h]

theorem IsSweep.length {a : GrantAlloc} {rows : List Template} (h : IsSweep a rows) :
    rows.length = grantSweepLen a.width ∧ 0 < a.width := by
  obtain ⟨tx, h⟩ := h
  have hpos : 0 < a.width := by
    rcases Nat.eq_zero_or_pos a.width with h0 | h0
    · rw [grantBuildSweep_none h0] at h
      cases h
    · exact h0
  rw [grantBuildSweep_eq hpos] at h
  obtain rfl := Option.some.inj h
  refine ⟨?_, hpos⟩
  simp [channelRows, grantGroupb, List.length_flatMap, grantSweepLen]
  omega

/-- The channels the rows of a sweep over `a` address, row by row. They do not depend on the values
the rows carry. -/
def sweepChannels (a : GrantAlloc) : List (Option ℕ) :=
  [none] ++ List.replicate 3 (some a.base) ++ List.replicate 7 none ++
    (List.range' 1 (a.width - 1)).flatMap fun c => List.replicate 3 (some (a.base + c))

theorem map_groupaChannel_channelRows (tx : Option HeadampTx) {ch : ℕ} (h : ch < 256) :
    (channelRows tx ch).map groupaChannel = List.replicate 3 (some ch) := by
  simp [channelRows, groupaChannel_groupaRow, h, List.replicate]

theorem IsSweep.channels {a : GrantAlloc} {rows : List Template} (h : IsSweep a rows) :
    rows.map groupaChannel = sweepChannels a := by
  have hpos := h.length.2
  obtain ⟨hw, hb⟩ := a.fits
  unfold headampCeiling at hb
  obtain ⟨tx, h⟩ := h
  rw [grantBuildSweep_eq hpos] at h
  obtain rfl := Option.some.inj h
  have hfixed : groupaChannel grantHeadAck = none ∧ groupaChannel grantHeadMark = none ∧
      grantGroupb.map groupaChannel = List.replicate 6 none := by decide
  have hrest : ((List.range' 1 (a.width - 1)).flatMap fun c => channelRows tx (a.base + c)).map
      groupaChannel
      = (List.range' 1 (a.width - 1)).flatMap fun c => List.replicate 3 (some (a.base + c)) := by
    rw [List.map_flatMap]
    refine List.flatMap_congr fun c hc => ?_
    rw [List.mem_range'_1] at hc
    exact map_groupaChannel_channelRows tx (by omega)
  simp only [List.map_append, List.map_cons, List.map_nil, hfixed, hrest,
    map_groupaChannel_channelRows tx (show a.base < 256 by omega)]
  rfl

/-- A sweep addresses exactly the allocated channels. -/
theorem mem_sweepChannels {a : GrantAlloc} (h : 0 < a.width) (ch : ℕ) :
    some ch ∈ sweepChannels a ↔ a.base ≤ ch ∧ ch < a.base + a.width := by
  simp only [sweepChannels, List.mem_append, List.mem_singleton, List.mem_replicate,
    List.mem_flatMap, List.mem_range'_1, reduceCtorEq, false_or, and_false, or_false,
    Option.some.injEq]
  constructor
  · rintro (⟨-, rfl⟩ | ⟨c, hc, -, rfl⟩) <;> omega
  · intro hch
    rcases Nat.eq_or_lt_of_le hch.1 with heq | hlt
    · exact .inl ⟨by omega, heq.symm⟩
    · exact .inr ⟨ch - a.base, by omega, by omega, by omega⟩

end Libreac
