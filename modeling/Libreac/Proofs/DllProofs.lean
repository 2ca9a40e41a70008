import Libreac.Proofs.HandoverProofs

/-!
# Proofs: the loop keeps its bounds and converges

A sample moves the correction by `glide`, which pulls it toward the sample, clamps the target and limits
the step, in this order. So it is bounded whatever the samples are, and under a constant one it comes
monotonically to the clamped sample: the clamp keeps the pull toward it (`Smooth.clamp_pull_up`), and the
limit on the step keeps its direction.
-/

namespace Libreac

variable {d : Dll} {m ppm : ℚ}

/-! ## One update -/

theorem dllSane_iff : dllSane m = true ↔ -dllSanePpm < m ∧ m < dllSanePpm := by
  unfold dllSane
  exact decide_eq_true_iff

theorem dllUpdate_applied (d : Dll) (m : ℚ) :
    (dllUpdate d m).1.appliedPpm = if dllSane m then glide d.appliedPpm m else d.appliedPpm := by
  cases hm : dllSane m with
  | false => rw [dllUpdate_rejected hm, if_neg Bool.false_ne_true]
  | true => rw [(dllUpdate_taken hm).2.2.2, if_pos rfl, steer_applied]

@[simp] theorem judge_nominal (d : Dll) : d.judge.nominalNs = d.nominalNs := by
  unfold Dll.judge
  split_ifs <;> rfl

theorem dllUpdate_nominal (d : Dll) (m : ℚ) : (dllUpdate d m).1.nominalNs = d.nominalNs := by
  unfold dllUpdate
  split_ifs with hinsane
  · rfl
  · dsimp only
    split_ifs
    · rw [Dll.observe, judge_nominal]
      rfl
    · rfl

theorem glide_slew (ppm m : ℚ) : |glide ppm m - ppm| ≤ dllSlewPpm := by
  unfold glide
  rw [add_sub_cancel_left]
  exact Smooth.abs_clamp_le (by norm_num [dllSlewPpm]) _

/-- A step up to `t` that is limited gets there, or goes as far as it may. -/
theorem step_up {t : ℚ} (h : ppm ≤ t) :
    ppm + Smooth.clamp dllSlewPpm (t - ppm) = t ∨
      dllSlewPpm < t - ppm ∧ ppm + Smooth.clamp dllSlewPpm (t - ppm) = ppm + dllSlewPpm := by
  have hslew : (0 : ℚ) ≤ dllSlewPpm := by norm_num [dllSlewPpm]
  unfold Smooth.clamp
  split_ifs with hlong hback
  · exact .inr ⟨hlong, rfl⟩
  · linarith
  · exact .inl (by ring)

theorem step_down {t : ℚ} (h : t ≤ ppm) :
    ppm + Smooth.clamp dllSlewPpm (t - ppm) = t ∨
      t - ppm < -dllSlewPpm ∧ ppm + Smooth.clamp dllSlewPpm (t - ppm) = ppm - dllSlewPpm := by
  have hslew : (0 : ℚ) ≤ dllSlewPpm := by norm_num [dllSlewPpm]
  unfold Smooth.clamp
  split_ifs with hback hlong
  · linarith
  · exact .inr ⟨hlong, by ring⟩
  · exact .inl (by ring)

/-- A sample brings the correction toward the clamped sample, by a limited step or by a quarter of the way. -/
theorem glide_toward (hlow : -dllMaxPpm ≤ ppm) (hhigh : ppm ≤ dllMaxPpm) (m : ℚ) :
    Smooth.Toward ppm (glide ppm m) (Smooth.clamp dllMaxPpm m) ∧
      (|Smooth.clamp dllMaxPpm m - glide ppm m| ≤ |Smooth.clamp dllMaxPpm m - ppm| - dllSlewPpm ∨
        |Smooth.clamp dllMaxPpm m - glide ppm m| ≤ 3 / 4 * |Smooth.clamp dllMaxPpm m - ppm|) := by
  have hmax : (0 : ℚ) ≤ dllMaxPpm := by norm_num [dllMaxPpm]
  have hkp : (0 : ℚ) ≤ dllKp ∧ dllKp ≤ 1 := by norm_num [dllKp]
  have hslew : (0 : ℚ) ≤ dllSlewPpm := by norm_num [dllSlewPpm]
  have hquarter : dllKp = 1 / 4 := rfl
  have hup := Smooth.clamp_pull_up (x := m) hkp.1 hkp.2 hmax hlow
  have hdown := Smooth.clamp_pull_down (x := m) hkp.1 hkp.2 hmax hhigh
  unfold glide
  generalize Smooth.clamp dllMaxPpm (ppm + dllKp * (m - ppm)) = t at hup hdown ⊢
  generalize Smooth.clamp dllMaxPpm m = c at hup hdown ⊢
  rw [hquarter] at hup hdown
  rcases le_total ppm c with h | h
  · obtain ⟨hpull, hpast⟩ := hup h
    rcases step_up (show ppm ≤ t by linarith) with hstep | ⟨hlong, hstep⟩ <;> rw [hstep]
    · refine ⟨⟨fun _ => by constructor <;> linarith, fun h' => by constructor <;> linarith⟩, .inr ?_⟩
      rw [abs_of_nonneg (by linarith), abs_of_nonneg (by linarith)]
      linarith
    · refine ⟨⟨fun _ => by constructor <;> linarith, fun h' => by constructor <;> linarith⟩, .inl ?_⟩
      rw [abs_of_nonneg (by linarith), abs_of_nonneg (by linarith)]
      linarith
  · obtain ⟨hpull, hpast⟩ := hdown h
    rcases step_down (show t ≤ ppm by linarith) with hstep | ⟨hlong, hstep⟩ <;> rw [hstep]
    · refine ⟨⟨fun h' => by constructor <;> linarith, fun _ => by constructor <;> linarith⟩, .inr ?_⟩
      rw [abs_of_nonpos (by linarith), abs_of_nonpos (by linarith)]
      linarith
    · refine ⟨⟨fun h' => by constructor <;> linarith, fun _ => by constructor <;> linarith⟩, .inl ?_⟩
      rw [abs_of_nonpos (by linarith), abs_of_nonpos (by linarith)]
      linarith

/-! ## Any samples -/

/-- What the loop never leaves. -/
structure DllBounds (nominalNs : ℕ) (d : Dll) : Prop where
  nominal : d.nominalNs = nominalNs
  low : -dllMaxPpm ≤ d.appliedPpm
  high : d.appliedPpm ≤ dllMaxPpm

theorem DllBounds.step {nominalNs : ℕ} (h : DllBounds nominalNs d) (m : ℚ) :
    DllBounds nominalNs (dllUpdate d m).1 := by
  have hglide := glide_bounds h.low h.high m
  refine ⟨(dllUpdate_nominal d m).trans h.nominal, ?_, ?_⟩ <;> rw [dllUpdate_applied] <;> split_ifs
  · exact hglide.1
  · exact h.low
  · exact hglide.2
  · exact h.high

theorem dllBounds_run (nominalNs : ℕ) (ms : List ℚ) :
    DllBounds nominalNs (dllMachine.run (dllInit nominalNs) ms) :=
  dllMachine.run_invariant (L := fun _ _ => True)
    ⟨rfl, by norm_num [dllInit, dllMaxPpm], by norm_num [dllInit, dllMaxPpm]⟩
    (fun _ m h _ => h.step m) ms fun _ _ _ => trivial

/-! ## The period -/

/-- The rate of the period is within the bound of the nominal one, up to the rounding. -/
def RateWithin (nominalNs periodNs : ℕ) : Prop :=
  (nominalNs : ℚ) / (1 + dllMaxPpm / 1000000) - 1 / 2 ≤ periodNs ∧
    (periodNs : ℚ) ≤ nominalNs / (1 - dllMaxPpm / 1000000) + 1 / 2

/-- The period itself is within the bound of the nominal one, up to a nanosecond. -/
def PeriodWithin (nominalNs periodNs : ℕ) : Prop :=
  |(periodNs : ℚ) - nominalNs| ≤ nominalNs * dllMaxPpm / 1000000 + 1

/-- The rounded quotient is the period. -/
theorem dllPeriodNs_round (hpos : 1 / 2 ≤ (d.nominalNs : ℚ) / (1 + d.appliedPpm / 1000000)) :
    0 < dllPeriodNs d ∧
      (d.nominalNs : ℚ) / (1 + d.appliedPpm / 1000000) - 1 / 2 ≤ dllPeriodNs d ∧
      (dllPeriodNs d : ℚ) ≤ d.nominalNs / (1 + d.appliedPpm / 1000000) + 1 / 2 := by
  unfold dllPeriodNs
  generalize (d.nominalNs : ℚ) / (1 + d.appliedPpm / 1000000) = q at hpos ⊢
  have hfloor : 1 ≤ (q + 1 / 2).floor := by
    rw [Rat.le_floor_iff]
    push_cast
    linarith
  have hle : ((q + 1 / 2).floor : ℚ) ≤ q + 1 / 2 := Rat.le_floor_iff.mp (le_refl _)
  have hlt : q + 1 / 2 < (q + 1 / 2).floor + 1 := by
    have h := Rat.floor_lt_iff.mp (lt_add_one (q + 1 / 2).floor)
    push_cast at h
    exact h
  have hcast : (((q + 1 / 2).floor.toNat : ℕ) : ℚ) = (q + 1 / 2).floor := by
    have hint : (((q + 1 / 2).floor.toNat : ℕ) : ℤ) = (q + 1 / 2).floor := Int.toNat_of_nonneg (by omega)
    exact_mod_cast hint
  dsimp only
  rw [if_pos (by omega), hcast]
  refine ⟨by omega, by linarith, hle⟩

theorem dllPeriodNs_within {nominalNs : ℕ} (h : DllBounds nominalNs d) (hnominal : 1000 ≤ nominalNs) :
    0 < dllPeriodNs d ∧ RateWithin nominalNs (dllPeriodNs d) := by
  obtain ⟨rfl, hlow, hhigh⟩ := h
  have hn : (1000 : ℚ) ≤ d.nominalNs := by exact_mod_cast hnominal
  unfold dllMaxPpm at hlow hhigh
  have hleast : (d.nominalNs : ℚ) / (1 + dllMaxPpm / 1000000) ≤
      d.nominalNs / (1 + d.appliedPpm / 1000000) := by
    unfold dllMaxPpm
    apply div_le_div_of_nonneg_left <;> linarith
  have hmost : (d.nominalNs : ℚ) / (1 + d.appliedPpm / 1000000) ≤
      d.nominalNs / (1 - dllMaxPpm / 1000000) := by
    unfold dllMaxPpm
    apply div_le_div_of_nonneg_left <;> linarith
  have hhalf : (1 : ℚ) / 2 ≤ d.nominalNs / (1 + dllMaxPpm / 1000000) := by
    unfold dllMaxPpm
    rw [le_div_iff₀ (by norm_num)]
    linarith
  obtain ⟨hpos, hl, hr⟩ := dllPeriodNs_round (hhalf.trans hleast)
  refine ⟨hpos, ?_, ?_⟩ <;> linarith

/-- Where the square of the bound makes less than the rounding, the period is as near as its rate. -/
theorem RateWithin.period {nominalNs periodNs : ℕ} (h : RateWithin nominalNs periodNs)
    (hshort : nominalNs ≤ 12497500) : PeriodWithin nominalNs periodNs := by
  obtain ⟨hlow, hhigh⟩ := h
  have hn : (nominalNs : ℚ) ≤ 12497500 := by exact_mod_cast hshort
  have hn' : (0 : ℚ) ≤ nominalNs := by positivity
  have hleast : (nominalNs : ℚ) * (1 - dllMaxPpm / 1000000) ≤ nominalNs / (1 + dllMaxPpm / 1000000) := by
    unfold dllMaxPpm
    rw [le_div_iff₀ (by norm_num)]
    linarith
  have hmost : (nominalNs : ℚ) / (1 - dllMaxPpm / 1000000) ≤
      nominalNs * (1 + dllMaxPpm / 1000000) + 1 / 2 := by
    unfold dllMaxPpm
    rw [div_le_iff₀ (by norm_num)]
    linarith
  unfold PeriodWithin
  rw [abs_le]
  constructor <;> linarith

/-! ## The bounds of the loop -/

/-- Whatever was measured, the correction is bounded, moves by limited steps, and a sample that is not sane
is only counted; under a constant sample that is, it comes to the clamped sample. -/
theorem dll_bounds (nominalNs : ℕ) (ms : List ℚ) :
    let d : Dll := dllMachine.run (dllInit nominalNs) ms
    |d.appliedPpm| ≤ dllMaxPpm ∧
    (∀ m, |(dllUpdate d m).1.appliedPpm - d.appliedPpm| ≤ dllSlewPpm) ∧
    (∀ m, ¬ (-dllSanePpm < m ∧ m < dllSanePpm) →
      dllUpdate d m = ({ d with rejected := d.rejected + 1 }, false)) ∧
    (1000 ≤ nominalNs →
      0 < dllPeriodNs d ∧ RateWithin nominalNs (dllPeriodNs d) ∧
        (nominalNs ≤ 12497500 → PeriodWithin nominalNs (dllPeriodNs d))) ∧
    ∀ m, -dllSanePpm < m ∧ m < dllSanePpm → ∀ n,
      let before := (dllMachine.run d (List.replicate n m)).appliedPpm
      let after := (dllMachine.run d (List.replicate (n + 1) m)).appliedPpm
      let limit := Smooth.clamp dllMaxPpm m
      Smooth.Toward before after limit ∧
        (|limit - after| ≤ |limit - before| - dllSlewPpm ∨ |limit - after| ≤ 3 / 4 * |limit - before|) := by
  intro d
  have hd : DllBounds nominalNs d := dllBounds_run nominalNs ms
  refine ⟨abs_le.mpr ⟨hd.low, hd.high⟩, ?_, ?_, ?_, ?_⟩
  · intro m
    rw [dllUpdate_applied]
    split_ifs
    · exact glide_slew _ _
    · rw [sub_self, abs_zero]
      norm_num [dllSlewPpm]
  · intro m hm
    exact dllUpdate_rejected (by rw [← Bool.not_eq_true, dllSane_iff]; exact hm)
  · intro hnominal
    obtain ⟨hpos, hrate⟩ := dllPeriodNs_within hd hnominal
    exact ⟨hpos, hrate, hrate.period⟩
  · intro m hm n before after limit
    have hmore : DllBounds nominalNs (dllMachine.run d (List.replicate n m)) := by
      have hrun := dllBounds_run nominalNs (ms ++ List.replicate n m)
      rw [dllMachine.run_append] at hrun
      exact hrun
    have hafter : after = glide before m := by
      show (dllMachine.run d (List.replicate (n + 1) m)).appliedPpm = _
      rw [List.replicate_succ', dllMachine.run_concat, dllMachine.event_post, dllMachine_step,
        dllUpdate_applied, if_pos (dllSane_iff.mpr hm)]
    rw [hafter]
    exact glide_toward hmore.low hmore.high m

/-- Samples that are far below bring the correction down by whole steps. -/
theorem dll_falls (nominalNs : ℕ) :
    ∀ n ≤ 20, (dllMachine.run (dllInit nominalNs) (List.replicate n (-1000))).appliedPpm = -10 * n := by
  intro n
  induction n with
  | zero => intro _; norm_num [dllInit]
  | succ n ih =>
    intro hn
    have hsane : dllSane (-1000) = true := dllSane_iff.mpr (by norm_num [dllSanePpm])
    have hn' : (n : ℚ) ≤ 19 := by exact_mod_cast Nat.le_of_succ_le_succ hn
    have hn₀ : (0 : ℚ) ≤ n := by positivity
    rw [List.replicate_succ', dllMachine.run_concat, dllMachine.event_post, dllMachine_step,
      dllUpdate_applied, if_pos hsane, ih (by omega)]
    unfold glide Smooth.clamp dllMaxPpm dllKp dllSlewPpm
    push_cast
    split_ifs <;> linarith

/-- A period of a second is forty nanoseconds further from the nominal one than its rate: at the bound the
quotient is not the product. -/
theorem dll_period_beyond :
    ¬ ∀ (nominalNs : ℕ) (ms : List ℚ), 1000 ≤ nominalNs →
      PeriodWithin nominalNs (dllPeriodNs (dllMachine.run (dllInit nominalNs) ms)) := by
  intro h
  have hfar := h 1000000000 (List.replicate 20 (-1000)) (by norm_num)
  have hd := dllBounds_run 1000000000 (List.replicate 20 (-1000))
  have happlied := dll_falls 1000000000 20 (le_refl _)
  generalize dllMachine.run (dllInit 1000000000) (List.replicate 20 (-1000)) = d at hfar hd happlied
  have hlong : (1000200040 : ℚ) ≤ d.nominalNs / (1 + d.appliedPpm / 1000000) := by
    rw [happlied, hd.nominal]
    norm_num
  have hround := (dllPeriodNs_round (d := d) (by linarith)).2.1
  unfold PeriodWithin dllMaxPpm at hfar
  rw [abs_le] at hfar
  have hnear := hfar.2
  push_cast at hnear
  linarith

end Libreac
