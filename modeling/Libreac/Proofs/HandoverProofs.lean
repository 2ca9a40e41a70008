import Libreac.Proofs.ClockProofs

/-!
# Proofs: the lock on a new reference

Two disciplines that switch to one reference behave alike from then on exactly if they come with the same
average of the residuals: a switch starts the in-band count and the stability series over, and keeps that
average. Behind equal averages nothing of the histories is left (`OneLoop`); different averages stay
apart, and a sample that brings one of them to the edge of the band tells them apart.
-/

namespace Libreac

open Reactive.Machine

variable {c c₁ c₂ : ClockDisc} {avail : UInt32} {src : ClockSource} {m a b e ppm : ℚ}

/-- The states published over the calls. -/
def statesAfter (c : ClockDisc) (is : List ClockInput) : List ClockState :=
  (clockMachine.trace c is).map fun e => e.post.state

theorem clockDiscUpdate_fixed (c : ClockDisc) (avail : UInt32) (measured : Option ℚ) :
    let c' := clockDiscUpdate c avail measured
    c'.role = c.role ∧ c'.quality = c.quality ∧ c'.minQuality = c.minQuality := by
  have hswitch : ∀ src, (c.switch src).role = c.role ∧ (c.switch src).quality = c.quality ∧
      (c.switch src).minQuality = c.minQuality := by
    intro src
    unfold ClockDisc.switch
    split_ifs <;> exact ⟨rfl, rfl, rfl⟩
  have hwait : ∀ b : ClockDisc, b.wait.role = b.role ∧ b.wait.quality = b.quality ∧
      b.wait.minQuality = b.minQuality := by
    intro b
    unfold ClockDisc.wait
    split_ifs <;> exact ⟨rfl, rfl, rfl⟩
  intro c'
  by_cases hfree : c.selects avail = .freerun
  · have hc' : c' = _ := clockDiscUpdate_free hfree measured
    rw [hc']
    unfold ClockDisc.freeRun
    split_ifs <;> exact hswitch .freerun
  · cases measured with
    | none =>
      have hc' : c' = _ := clockDiscUpdate_none hfree
      obtain ⟨hrole, hquality, hmin⟩ := hwait (c.switch (c.selects avail))
      rw [hc']
      exact ⟨hrole.trans (hswitch _).1, hquality.trans (hswitch _).2.1, hmin.trans (hswitch _).2.2⟩
    | some m =>
      cases hm : dllSane m with
      | true =>
        have hc' : c' = _ := clockDiscUpdate_taken hfree hm
        rw [hc']
        exact hswitch (c.selects avail)
      | false =>
        have hc' : c' = _ := clockDiscUpdate_rejected hfree hm
        obtain ⟨hrole, hquality, hmin⟩ := hwait (c.switch (c.selects avail))
        rw [hc']
        exact ⟨hrole.trans (hswitch _).1, hquality.trans (hswitch _).2.1, hmin.trans (hswitch _).2.2⟩

/-- A call takes a sample or it does not. -/
theorem sample_cases (c : ClockDisc) (avail : UInt32) (measured : Option ℚ) :
    (c.selects avail = .freerun ∨ ∀ m ∈ measured, dllSane m = false) ∨
      c.selects avail ≠ .freerun ∧ ∃ m, measured = some m ∧ dllSane m = true := by
  by_cases hfree : c.selects avail = .freerun
  · exact .inl (.inl hfree)
  · cases measured with
    | none => exact .inl (.inr nofun)
    | some m =>
      cases hm : dllSane m with
      | true => exact .inr ⟨hfree, m, rfl, hm⟩
      | false =>
        refine .inl (.inr fun m' hm' => ?_)
        rw [← Option.some.inj hm']
        exact hm

theorem clockDiscUpdate_untaken_dll {measured : Option ℚ}
    (h : c.selects avail = .freerun ∨ ∀ m ∈ measured, dllSane m = false) :
    let c' := clockDiscUpdate c avail measured
    c'.dll.appliedPpm = c.dll.appliedPpm ∧ c'.dll.residEma = c.dll.residEma ∧
      c'.dll.updates = c.dll.updates := by
  have hswitch : ∀ src, (c.switch src).dll.appliedPpm = c.dll.appliedPpm ∧
      (c.switch src).dll.residEma = c.dll.residEma ∧ (c.switch src).dll.updates = c.dll.updates :=
    fun src => ⟨switch_applied c src, switch_residEma c src, switch_updates c src⟩
  intro c'
  by_cases hfree : c.selects avail = .freerun
  · have hc' : c' = _ := clockDiscUpdate_free hfree measured
    rw [hc', report_dll, freeRun_dll]
    exact hswitch .freerun
  · have hm := h.resolve_left hfree
    cases measured with
    | none =>
      have hc' : c' = _ := clockDiscUpdate_none hfree
      rw [hc', report_dll, wait_dll]
      exact hswitch (c.selects avail)
    | some m =>
      have hc' : c' = _ := clockDiscUpdate_rejected hfree (hm m rfl)
      rw [hc']
      exact hswitch (c.selects avail)

/-! ## Behind equal averages -/

/-- Two loops at one correction that have both taken a sample, under the same grades. -/
structure SameRate (c₁ c₂ : ClockDisc) : Prop where
  role : c₂.role = c₁.role
  quality : c₂.quality = c₁.quality
  minQuality : c₂.minQuality = c₁.minQuality
  applied : c₂.dll.appliedPpm = c₁.dll.appliedPpm
  seeded₁ : 0 < c₁.dll.updates
  seeded₂ : 0 < c₂.dll.updates

/-- Two loops that no call tells apart. -/
structure OneLoop (c₁ c₂ : ClockDisc) : Prop extends SameRate c₁ c₂ where
  residEma : c₂.dll.residEma = c₁.dll.residEma
  src : c₂.src = c₁.src
  inBand : c₂.inBand = c₁.inBand
  state : c₂.state = c₁.state

theorem SameRate.selects (h : SameRate c₁ c₂) (avail : UInt32) : c₂.selects avail = c₁.selects avail := by
  unfold ClockDisc.selects
  rw [h.role, h.quality, h.minQuality]

theorem nextEma_seeded {d : Dll} (h : 0 < d.updates) (m : ℚ) :
    d.nextEma m = Smooth.ema dllResidAlpha d.residEma |m - d.appliedPpm| :=
  if_neg (Nat.ne_of_gt h)

theorem steer_congr {d₁ d₂ : Dll} (h : d₂.appliedPpm = d₁.appliedPpm) (m : ℚ) :
    (d₂.steer m).appliedPpm = (d₁.steer m).appliedPpm := by
  simp only [Dll.steer, h]

/-- The rates stay together over every call. -/
theorem SameRate.update (h : SameRate c₁ c₂) (avail : UInt32) (measured : Option ℚ) :
    SameRate (clockDiscUpdate c₁ avail measured) (clockDiscUpdate c₂ avail measured) := by
  obtain ⟨hrole₁, hquality₁, hmin₁⟩ := clockDiscUpdate_fixed c₁ avail measured
  obtain ⟨hrole₂, hquality₂, hmin₂⟩ := clockDiscUpdate_fixed c₂ avail measured
  have hsel := h.selects avail
  rcases sample_cases c₁ avail measured with hun | ⟨hfree, m, rfl, hm⟩
  · obtain ⟨happlied₁, -, hupdates₁⟩ := clockDiscUpdate_untaken_dll hun
    rw [← hsel] at hun
    obtain ⟨happlied₂, -, hupdates₂⟩ := clockDiscUpdate_untaken_dll hun
    refine ⟨?_, ?_, ?_, ?_, ?_, ?_⟩
    · rw [hrole₁, hrole₂, h.role]
    · rw [hquality₁, hquality₂, h.quality]
    · rw [hmin₁, hmin₂, h.minQuality]
    · rw [happlied₁, happlied₂, h.applied]
    · rw [hupdates₁]
      exact h.seeded₁
    · rw [hupdates₂]
      exact h.seeded₂
  · obtain ⟨hupdates₁, -, happlied₁, -⟩ := clockDiscUpdate_follows hfree hm
    obtain ⟨hupdates₂, -, happlied₂, -⟩ := clockDiscUpdate_follows (c := c₂) (by rw [hsel]; exact hfree) hm
    refine ⟨?_, ?_, ?_, ?_, ?_, ?_⟩
    · rw [hrole₁, hrole₂, h.role]
    · rw [hquality₁, hquality₂, h.quality]
    · rw [hmin₁, hmin₂, h.minQuality]
    · rw [happlied₁, happlied₂]
      exact steer_congr h.applied m
    · rw [hupdates₁]
      exact Nat.succ_pos _
    · rw [hupdates₂]
      exact Nat.succ_pos _

/-- So do equal averages, and unequal ones stay apart. -/
theorem SameRate.residEma_update (h : SameRate c₁ c₂) (avail : UInt32) (measured : Option ℚ) :
    (clockDiscUpdate c₂ avail measured).dll.residEma = (clockDiscUpdate c₁ avail measured).dll.residEma ↔
      c₂.dll.residEma = c₁.dll.residEma := by
  have hsel := h.selects avail
  rcases sample_cases c₁ avail measured with hun | ⟨hfree, m, rfl, hm⟩
  · rw [(clockDiscUpdate_untaken_dll hun).2.1]
    rw [← hsel] at hun
    rw [(clockDiscUpdate_untaken_dll hun).2.1]
  · obtain ⟨-, hema₁, -⟩ := clockDiscUpdate_follows hfree hm
    obtain ⟨-, hema₂, -⟩ := clockDiscUpdate_follows (c := c₂) (by rw [hsel]; exact hfree) hm
    rw [hema₁, hema₂, nextEma_seeded h.seeded₁, nextEma_seeded h.seeded₂, h.applied]
    exact Smooth.ema_inj (by norm_num [dllResidAlpha])

/-- A call behind which nothing is left of two histories. -/
theorem OneLoop.of_switch (h : SameRate c₁ c₂) (hema : c₂.dll.residEma = c₁.dll.residEma)
    (measured : Option ℚ)
    (hband : (c₂.switch (c₁.selects avail)).inBand = (c₁.switch (c₁.selects avail)).inBand)
    (hstate : c₁.selects avail ≠ .freerun →
      (c₂.switch (c₁.selects avail)).state = (c₁.switch (c₁.selects avail)).state) :
    OneLoop (clockDiscUpdate c₁ avail measured) (clockDiscUpdate c₂ avail measured) := by
  have hsel := h.selects avail
  have hsrc : (clockDiscUpdate c₂ avail measured).src = (clockDiscUpdate c₁ avail measured).src := by
    rw [clockDiscUpdate_src, clockDiscUpdate_src, hsel]
  have hwait : c₁.selects avail ≠ .freerun →
      (c₂.switch (c₁.selects avail)).wait.state = (c₁.switch (c₁.selects avail)).wait.state := by
    intro hfree
    unfold ClockDisc.wait
    rw [hstate hfree]
    split_ifs
    · rfl
    · exact hstate hfree
  suffices hboth : (clockDiscUpdate c₂ avail measured).inBand = (clockDiscUpdate c₁ avail measured).inBand ∧
      (clockDiscUpdate c₂ avail measured).state = (clockDiscUpdate c₁ avail measured).state from
    ⟨h.update avail measured, (h.residEma_update avail measured).mpr hema, hsrc, hboth.1, hboth.2⟩
  by_cases hfree : c₁.selects avail = .freerun
  · have hfree₂ := hsel.trans hfree
    rw [hfree] at hband
    rw [clockDiscUpdate_free hfree, clockDiscUpdate_free hfree₂]
    refine ⟨?_, ?_⟩
    · rw [report_inBand, report_inBand, freeRun_inBand, freeRun_inBand, hband]
    · rw [report_state, report_state]
      unfold ClockDisc.freeRun
      rw [switch_updates, switch_updates, if_pos h.seeded₁, if_pos h.seeded₂]
  · have hfree₂ : c₂.selects avail ≠ .freerun := by
      rw [hsel]
      exact hfree
    cases measured with
    | none =>
      rw [clockDiscUpdate_none hfree, clockDiscUpdate_none hfree₂, hsel]
      refine ⟨?_, hwait hfree⟩
      rw [report_inBand, report_inBand, wait_inBand, wait_inBand, hband]
    | some m =>
      cases hm : dllSane m with
      | true =>
        obtain ⟨-, -, -, hband₁, hstate₁⟩ := clockDiscUpdate_follows hfree hm
        obtain ⟨-, -, -, hband₂, hstate₂⟩ := clockDiscUpdate_follows hfree₂ hm
        rw [switch_inBand, switch_inBand] at hband
        have hsame : (clockDiscUpdate c₂ avail (some m)).inBand =
            (clockDiscUpdate c₁ avail (some m)).inBand := by
          rw [hband₁, hband₂, (h.residEma_update avail (some m)).mpr hema, hsel, hband]
        exact ⟨hsame, by rw [hstate₁, hstate₂, hsame]⟩
      | false =>
        rw [clockDiscUpdate_rejected hfree hm, clockDiscUpdate_rejected hfree₂ hm, hsel]
        refine ⟨?_, hwait hfree⟩
        rw [report_inBand, report_inBand]
        exact (wait_inBand _).trans (hband.trans (wait_inBand _).symm)

theorem OneLoop.step (h : OneLoop c₁ c₂) (i : ClockInput) : OneLoop (clockStep c₁ i) (clockStep c₂ i) := by
  cases i with
  | setQuality src q =>
    have hquality : (clockDiscSetQuality c₂ src q).quality = (clockDiscSetQuality c₁ src q).quality := by
      simp only [clockDiscSetQuality, h.quality]
    exact ⟨⟨h.role, hquality, h.minQuality, h.applied, h.seeded₁, h.seeded₂⟩, h.residEma, h.src, h.inBand,
      h.state⟩
  | update avail measured =>
    refine .of_switch h.toSameRate h.residEma measured ?_ fun hfree => ?_
    · rw [switch_inBand, switch_inBand, h.src, h.inBand]
    · unfold ClockDisc.switch
      rw [h.src]
      split_ifs
      · exact h.state
      · rfl

theorem OneLoop.statesAfter (h : OneLoop c₁ c₂) (is : List ClockInput) :
    statesAfter c₂ is = statesAfter c₁ is := by
  induction is generalizing c₁ c₂ with
  | nil => rfl
  | cons i is ih =>
    have hstep := h.step i
    show (clockStep c₂ i).state :: Libreac.statesAfter (clockStep c₂ i) is =
      (clockStep c₁ i).state :: Libreac.statesAfter (clockStep c₁ i) is
    rw [hstep.state, ih hstep]

/-! ## Bounds -/

/-- The correction after a sample. -/
def glide (ppm m : ℚ) : ℚ :=
  ppm + Smooth.clamp dllSlewPpm (Smooth.clamp dllMaxPpm (ppm + dllKp * (m - ppm)) - ppm)

theorem steer_applied (d : Dll) (m : ℚ) : (d.steer m).appliedPpm = glide d.appliedPpm m := rfl

theorem glide_bounds (h : -dllMaxPpm ≤ ppm) (h' : ppm ≤ dllMaxPpm) (m : ℚ) :
    -dllMaxPpm ≤ glide ppm m ∧ glide ppm m ≤ dllMaxPpm := by
  unfold glide
  have hmax : (0 : ℚ) ≤ dllMaxPpm := by norm_num [dllMaxPpm]
  have hslew : (0 : ℚ) ≤ dllSlewPpm := by norm_num [dllSlewPpm]
  have hlow := Smooth.le_clamp hmax (ppm + dllKp * (m - ppm))
  have hhigh := Smooth.clamp_le hmax (ppm + dllKp * (m - ppm))
  generalize Smooth.clamp dllMaxPpm (ppm + dllKp * (m - ppm)) = target at hlow hhigh
  -- A step toward the target stays between the two.
  obtain ⟨hup, hdown⟩ := Smooth.clamp_between hslew (target - ppm)
  rcases le_total 0 (target - ppm) with hstep | hstep
  · obtain ⟨h₀, h₁⟩ := hup hstep
    constructor <;> linarith
  · obtain ⟨h₀, h₁⟩ := hdown hstep
    constructor <;> linarith

/-- A sample at the correction itself leaves it. -/
theorem glide_self (h : -dllMaxPpm ≤ ppm) (h' : ppm ≤ dllMaxPpm) : glide ppm ppm = ppm := by
  unfold glide
  rw [sub_self, mul_zero, add_zero, Smooth.clamp_of_mem h h', sub_self,
    Smooth.clamp_of_mem (by norm_num [dllSlewPpm]) (by norm_num [dllSlewPpm]), add_zero]

theorem sane_near {x : ℚ} (h : -dllMaxPpm ≤ ppm) (h' : ppm ≤ dllMaxPpm) (hx : 0 ≤ x) (hx' : x ≤ 20) :
    dllSane (ppm + x) = true := by
  unfold dllSane
  rw [decide_eq_true_eq]
  unfold dllMaxPpm at h h'
  unfold dllSanePpm
  constructor <;> linarith

/-- What the loop never leaves. -/
structure LoopBounds (c : ClockDisc) : Prop where
  low : -dllMaxPpm ≤ c.dll.appliedPpm
  high : c.dll.appliedPpm ≤ dllMaxPpm
  residEma : 0 ≤ c.dll.residEma
  minQuality : c.minQuality = .marginal

theorem LoopBounds.step (h : LoopBounds c) (i : ClockInput) : LoopBounds (clockStep c i) := by
  cases i with
  | setQuality src q => exact ⟨h.low, h.high, h.residEma, h.minQuality⟩
  | update avail measured =>
    simp only [clockStep]
    have hmin := (clockDiscUpdate_fixed c avail measured).2.2.trans h.minQuality
    rcases sample_cases c avail measured with hun | ⟨hfree, m, rfl, hm⟩
    · obtain ⟨happlied, hema, -⟩ := clockDiscUpdate_untaken_dll hun
      refine ⟨?_, ?_, ?_, hmin⟩
      · rw [happlied]
        exact h.low
      · rw [happlied]
        exact h.high
      · rw [hema]
        exact h.residEma
    · obtain ⟨-, hema, happlied, -⟩ := clockDiscUpdate_follows hfree hm
      rw [steer_applied] at happlied
      obtain ⟨hlow, hhigh⟩ := glide_bounds h.low h.high m
      refine ⟨?_, ?_, ?_, hmin⟩
      · rw [happlied]
        exact hlow
      · rw [happlied]
        exact hhigh
      · rw [hema]
        unfold Dll.nextEma
        split_ifs
        · exact abs_nonneg _
        · exact Smooth.ema_nonneg (by norm_num [dllResidAlpha]) (by norm_num [dllResidAlpha]) h.residEma
            (abs_nonneg _)

theorem loopBounds_run (role : Role) (nominalNs : ℕ) (is : List ClockInput) :
    LoopBounds (clockMachine.run (clockDiscInit role nominalNs) is) :=
  clockMachine.run_invariant (L := fun _ _ => True)
    ⟨by norm_num [clockDiscInit, dllMaxPpm], by norm_num [clockDiscInit, dllMaxPpm], le_refl _, rfl⟩
    (fun _ i h _ => h.step i) is fun _ _ _ => trivial

/-! ## Different averages -/

/-- The best reference of a role. -/
def clockTop : Role → ClockSource
  | .master => .phc
  | .slave => .wire

/-- Every source is there. -/
def everySource : UInt32 := 0xffffffff

/-- The calls that bring samples while the sources of `avail` are there. -/
def samplesOf (avail : UInt32) (ms : List ℚ) : List ClockInput := ms.map fun m => .update avail (some m)

/-- The loop follows the reference `src`, which it selects while `avail` is there, from this correction
and this average on. -/
structure Follows (c : ClockDisc) (avail : UInt32) (src : ClockSource) (ppm e : ℚ) : Prop where
  selects : c.selects avail = src
  reference : src ≠ .freerun
  seeded : 0 < c.dll.updates
  applied : c.dll.appliedPpm = ppm
  residEma : c.dll.residEma = e
  low : -dllMaxPpm ≤ ppm
  high : ppm ≤ dllMaxPpm

/-- A call leaves what is selected. -/
theorem clockDiscUpdate_selects (c : ClockDisc) (avail : UInt32) (measured : Option ℚ) (avail' : UInt32) :
    (clockDiscUpdate c avail measured).selects avail' = c.selects avail' := by
  obtain ⟨hrole, hquality, hmin⟩ := clockDiscUpdate_fixed c avail measured
  unfold ClockDisc.selects
  rw [hrole, hquality, hmin]

/-- The best reference is selected while it is graded and every source is there. -/
theorem selects_clockTop (hmin : c.minQuality = .marginal) (hquality : c.quality (clockTop c.role) = .ungraded) :
    c.selects everySource = clockTop c.role := by
  obtain ⟨rest, hrest⟩ : ∃ rest, clockHierarchy c.role = clockTop c.role :: rest := by
    cases c.role
    · exact ⟨[.graph, .box], rfl⟩
    · exact ⟨[], rfl⟩
  have hthere : everySource &&& (clockTop c.role).bit ≠ 0 := by
    cases c.role <;> decide
  unfold ClockDisc.selects clockSelectGraded
  rw [hrest, hmin, List.find?_cons_of_pos, Option.getD_some]
  rw [decide_eq_true_eq, hquality]
  exact ⟨hthere, by decide⟩

/-- The next sample. -/
theorem Follows.sample (h : Follows c avail src ppm e) (hm : dllSane m = true) :
    let c' := clockStep c (.update avail (some m))
    let e' := Smooth.ema dllResidAlpha e |m - ppm|
    Follows c' avail src (glide ppm m) e' ∧ c'.src = src ∧
      c'.inBand = (if e' < dllLockPpm then (if c.src = src then c.inBand else 0) + 1 else 0) ∧
      c'.state = if dllLockUpdates ≤ c'.inBand then .locked else .locking := by
  have hsel := h.selects
  have hfree : c.selects avail ≠ .freerun := by
    rw [hsel]
    exact h.reference
  obtain ⟨hupdates, hema, happlied, hband, hstate⟩ := clockDiscUpdate_follows hfree hm
  rw [nextEma_seeded h.seeded, h.residEma, h.applied] at hema
  rw [steer_applied, h.applied] at happlied
  obtain ⟨hlow, hhigh⟩ := glide_bounds h.low h.high m
  intro c' e'
  refine ⟨⟨?_, h.reference, ?_, happlied, hema, hlow, hhigh⟩, ?_, ?_, hstate⟩
  · exact (clockDiscUpdate_selects c avail (some m) avail).trans hsel
  · exact Nat.lt_of_lt_of_eq (Nat.succ_pos _) hupdates.symm
  · exact (clockDiscUpdate_src c avail (some m)).trans hsel
  · refine hband.trans ?_
    rw [hema, hsel]
    simp only [eq_comm (a := src)]
    rfl

/-- Samples at the correction itself bring the average down. -/
theorem Follows.settle (h : Follows c avail src ppm e) (n : ℕ) :
    Follows (clockMachine.run c (List.replicate n (.update avail (some ppm)))) avail src ppm
      ((fun avg => Smooth.ema dllResidAlpha avg 0)^[n] e) := by
  induction n generalizing c e with
  | zero => exact h
  | succ n ih =>
    have hm : dllSane ppm = true := by
      rw [← add_zero ppm]
      exact sane_near h.low h.high (le_refl 0) (by norm_num)
    obtain ⟨hnext, -⟩ := h.sample hm
    rw [glide_self h.low h.high, sub_self, abs_zero] at hnext
    rw [List.replicate_succ, clockMachine.run_cons, Function.iterate_succ_apply]
    exact ih hnext

/-- In band, each of them counts. -/
theorem Follows.rest (h : Follows c avail src ppm e) (he : 0 ≤ e) (he' : e ≤ dllLockPpm)
    (hsrc : c.src = src) (n : ℕ) :
    let c' := clockMachine.run c (List.replicate n (.update avail (some ppm)))
    (∃ e', Follows c' avail src ppm e' ∧ 0 ≤ e' ∧ e' ≤ dllLockPpm) ∧ c'.src = src ∧
      c'.inBand = c.inBand + n := by
  induction n generalizing c e with
  | zero => exact ⟨⟨e, h, he, he'⟩, hsrc, rfl⟩
  | succ n ih =>
    have hm : dllSane ppm = true := by
      rw [← add_zero ppm]
      exact sane_near h.low h.high (le_refl 0) (by norm_num)
    obtain ⟨hnext, hsrc', hband, -⟩ := h.sample hm
    rw [glide_self h.low h.high, sub_self, abs_zero] at hnext
    rw [sub_self, abs_zero, if_pos hsrc] at hband
    have hema : 0 ≤ Smooth.ema dllResidAlpha e 0 ∧ Smooth.ema dllResidAlpha e 0 < dllLockPpm := by
      rw [Smooth.ema_eq]
      unfold dllResidAlpha
      unfold dllLockPpm at he' ⊢
      constructor <;> linarith
    rw [if_pos hema.2] at hband
    obtain ⟨hlater, hsrc'', hcount⟩ := ih hnext hema.1 hema.2.le hsrc'
    rw [List.replicate_succ, clockMachine.run_cons]
    refine ⟨hlater, hsrc'', hcount.trans ?_⟩
    show (clockStep c (.update avail (some ppm))).inBand + n = _
    rw [hband]
    omega

/-- The average that is lower comes into band where the other one is at its edge, and locks first. -/
theorem Follows.apart (h₁ : Follows c₁ avail src ppm a) (h₂ : Follows c₂ avail src ppm b) (ha : 0 ≤ a)
    (hab : a < b) : ∃ ms m, (clockMachine.run c₁ (samplesOf avail (ms ++ [m]))).state ≠
      (clockMachine.run c₂ (samplesOf avail (ms ++ [m]))).state := by
  have hα : 0 < dllResidAlpha ∧ dllResidAlpha ≤ 1 := by norm_num [dllResidAlpha]
  obtain ⟨n, hn⟩ : ∃ n, (fun x => Smooth.ema dllResidAlpha x 0)^[n] b < 20 / 9 :=
    Smooth.exists_ema_iterate_lt hα.1 hα.2 (ha.trans hab.le) (by norm_num)
  have hsettle₁ := h₁.settle n
  have hsettle₂ := h₂.settle n
  rw [Smooth.ema_iterate_zero] at hn hsettle₁ hsettle₂
  have hpow : 0 < (1 - dllResidAlpha) ^ n := pow_pos (by norm_num [dllResidAlpha]) n
  have hab' : (1 - dllResidAlpha) ^ n * a < (1 - dllResidAlpha) ^ n * b := mul_lt_mul_of_pos_left hab hpow
  have ha' : 0 ≤ (1 - dllResidAlpha) ^ n * a := mul_nonneg hpow.le ha
  generalize (1 - dllResidAlpha) ^ n * a = a', (1 - dllResidAlpha) ^ n * b = b' at *
  -- The sample that brings the second average to the edge of the band.
  have hx : 0 ≤ 20 - 9 * b' := by linarith
  have hm := sane_near h₁.low h₁.high hx (by linarith)
  obtain ⟨hedge₁, hsrc₁, hband₁, -⟩ := hsettle₁.sample hm
  obtain ⟨hedge₂, hsrc₂, hband₂, -⟩ := hsettle₂.sample hm
  rw [add_sub_cancel_left, abs_of_nonneg hx] at hedge₁ hband₁ hedge₂ hband₂
  have hin : Smooth.ema dllResidAlpha a' (20 - 9 * b') < dllLockPpm := by
    unfold Smooth.ema dllResidAlpha dllLockPpm
    linarith
  have hin₀ : 0 ≤ Smooth.ema dllResidAlpha a' (20 - 9 * b') :=
    Smooth.ema_nonneg (by norm_num [dllResidAlpha]) (by norm_num [dllResidAlpha]) ha' hx
  have hout : Smooth.ema dllResidAlpha b' (20 - 9 * b') = dllLockPpm := by
    unfold Smooth.ema dllResidAlpha dllLockPpm
    ring
  rw [if_pos hin] at hband₁
  rw [hout] at hedge₂ hband₂
  rw [if_neg (lt_irrefl _)] at hband₂
  -- Three more samples lock the first loop and not the second.
  obtain ⟨⟨e₁, hfollows₁, he₁, he₁'⟩, htop₁, hcount₁⟩ := hedge₁.rest hin₀ hin.le hsrc₁ 2
  obtain ⟨⟨e₂, hfollows₂, he₂, he₂'⟩, htop₂, hcount₂⟩ := hedge₂.rest (by norm_num [dllLockPpm]) (le_refl _) hsrc₂ 2
  have hzero : dllSane (glide ppm (ppm + (20 - 9 * b'))) = true := by
    rw [← add_zero (glide _ _)]
    exact sane_near hedge₁.low hedge₁.high (le_refl 0) (by norm_num)
  have hlast : ∀ e, 0 ≤ e → e ≤ dllLockPpm → Smooth.ema dllResidAlpha e 0 < dllLockPpm := by
    intro e he he'
    rw [Smooth.ema_eq]
    unfold dllResidAlpha
    unfold dllLockPpm at he' ⊢
    linarith
  obtain ⟨-, -, hend₁, hstate₁⟩ := hfollows₁.sample hzero
  obtain ⟨-, -, hend₂, hstate₂⟩ := hfollows₂.sample hzero
  rw [sub_self, abs_zero, if_pos (hlast _ he₁ he₁'), if_pos htop₁, hcount₁, hband₁] at hend₁
  rw [sub_self, abs_zero, if_pos (hlast _ he₂ he₂'), if_pos htop₂, hcount₂, hband₂] at hend₂
  rw [hend₁, if_pos (by unfold dllLockUpdates; omega)] at hstate₁
  rw [hend₂, if_neg (by decide)] at hstate₂
  refine ⟨List.replicate n ppm ++ [ppm + (20 - 9 * b')] ++ List.replicate 2 (glide ppm (ppm + (20 - 9 * b'))),
    glide ppm (ppm + (20 - 9 * b')), ?_⟩
  simp only [samplesOf, List.map_append, List.map_replicate, List.map_cons, List.map_nil,
    clockMachine.run_append, clockMachine.run_cons, clockMachine.run_nil, clockMachine_step]
  rw [hstate₁, hstate₂]
  nofun

/-! ## The switch -/

theorem run_state_of_statesAfter {js : List ClockInput} {j : ClockInput}
    (h : statesAfter c₁ (js ++ [j]) = statesAfter c₂ (js ++ [j])) :
    (clockMachine.run c₁ (js ++ [j])).state = (clockMachine.run c₂ (js ++ [j])).state := by
  unfold statesAfter at h
  rw [trace_concat, trace_concat, List.map_append, List.map_append, List.map_singleton,
    List.map_singleton] at h
  rw [run_concat, run_concat]
  exact (List.append_inj' h rfl).2 |> List.cons.inj |>.1

/-- Samples of a reference tell loops at one rate apart that have different averages. -/
theorem SameRate.told_apart (h : SameRate c₁ c₂) (hb₁ : LoopBounds c₁) (hb₂ : LoopBounds c₂)
    (hne : c₂.dll.residEma ≠ c₁.dll.residEma) (avail : UInt32) (hfree : c₁.selects avail ≠ .freerun) :
    ∃ ms, statesAfter c₂ (samplesOf avail ms) ≠ statesAfter c₁ (samplesOf avail ms) := by
  have h₁ : Follows c₁ avail (c₁.selects avail) c₁.dll.appliedPpm c₁.dll.residEma :=
    ⟨rfl, hfree, h.seeded₁, rfl, rfl, hb₁.low, hb₁.high⟩
  have h₂ : Follows c₂ avail (c₁.selects avail) c₁.dll.appliedPpm c₂.dll.residEma :=
    ⟨h.selects avail, hfree, h.seeded₂, h.applied, rfl, hb₁.low, hb₁.high⟩
  have hlast : ∀ (ms : List ℚ) m, samplesOf avail (ms ++ [m]) = samplesOf avail ms ++ [.update avail (some m)] :=
    fun _ _ => List.map_append
  rcases lt_or_gt_of_ne hne with hlt | hlt
  · obtain ⟨ms, m, hstate⟩ := h₂.apart h₁ hb₂.residEma hlt
    refine ⟨ms ++ [m], fun hsame => hstate ?_⟩
    rw [hlast] at hsame ⊢
    exact (run_state_of_statesAfter hsame.symm).symm
  · obtain ⟨ms, m, hstate⟩ := h₁.apart h₂ hb₁.residEma hlt
    refine ⟨ms ++ [m], fun hsame => hstate ?_⟩
    rw [hlast] at hsame ⊢
    exact run_state_of_statesAfter hsame.symm

/-- Where no reference is good enough, one that is graded anew tells them apart. -/
theorem SameRate.told_apart_graded (h : SameRate c₁ c₂) (hb₁ : LoopBounds c₁) (hb₂ : LoopBounds c₂)
    (hne : c₂.dll.residEma ≠ c₁.dll.residEma) : ∃ js, statesAfter c₂ js ≠ statesAfter c₁ js := by
  have hgrade : SameRate (clockDiscSetQuality c₁ (clockTop c₁.role) .ungraded)
      (clockDiscSetQuality c₂ (clockTop c₁.role) .ungraded) := by
    refine ⟨h.role, ?_, h.minQuality, h.applied, h.seeded₁, h.seeded₂⟩
    simp only [clockDiscSetQuality, h.quality]
  have htop : (clockDiscSetQuality c₁ (clockTop c₁.role) .ungraded).selects everySource = clockTop c₁.role :=
    selects_clockTop hb₁.minQuality (Function.update_self ..)
  have hreference : clockTop c₁.role ≠ .freerun := by
    cases c₁.role <;> decide
  obtain ⟨ms, hstates⟩ := hgrade.told_apart (hb₁.step (.setQuality _ _)) (hb₂.step (.setQuality _ _)) hne
    everySource (by rw [htop]; exact hreference)
  refine ⟨.setQuality (clockTop c₁.role) .ungraded :: samplesOf everySource ms, fun hsame => hstates ?_⟩
  exact (List.cons.inj hsame).2

/-- Two runs switch to the same reference at the same correction, behind at least one sample each: the states
they publish from then on are the same, whatever comes, exactly if the averages of their residuals are. Behind
different averages samples of that reference alone tell the runs apart; after a switch to none of them a grade
may have to come first. -/
theorem clock_handover (role : Role) (nominalNs : ℕ) (h₁ h₂ : List ClockInput) (avail : UInt32)
    (measured : Option ℚ) :
    let c₁ := clockMachine.run (clockDiscInit role nominalNs) h₁
    let c₂ := clockMachine.run (clockDiscInit role nominalNs) h₂
    c₁.selects avail ≠ c₁.src → c₂.selects avail ≠ c₂.src → c₂.quality = c₁.quality →
    c₂.dll.appliedPpm = c₁.dll.appliedPpm → 0 < c₁.dll.updates → 0 < c₂.dll.updates →
    ((∀ js, statesAfter c₂ (.update avail measured :: js) = statesAfter c₁ (.update avail measured :: js)) ↔
      c₂.dll.residEma = c₁.dll.residEma) ∧
    (c₂.dll.residEma ≠ c₁.dll.residEma → c₁.selects avail ≠ .freerun → ∃ ms,
      statesAfter c₂ (.update avail measured :: samplesOf avail ms) ≠
        statesAfter c₁ (.update avail measured :: samplesOf avail ms)) := by
  intro c₁ c₂ hswitch₁ hswitch₂ hquality happlied hseeded₁ hseeded₂
  have hfixed : ∀ is, (clockMachine.run (clockDiscInit role nominalNs) is).role = role := by
    intro is
    refine clockMachine.run_invariant (I := fun c => c.role = role) (L := fun _ _ => True) rfl ?_ is
      fun _ _ _ => trivial
    intro c i hc _
    cases i with
    | setQuality src q => exact hc
    | update avail measured => exact (clockDiscUpdate_fixed c avail measured).1.trans hc
  have hrate : SameRate c₁ c₂ :=
    ⟨(hfixed h₂).trans (hfixed h₁).symm, hquality,
      (loopBounds_run role nominalNs h₂).minQuality.trans (loopBounds_run role nominalNs h₁).minQuality.symm,
      happlied, hseeded₁, hseeded₂⟩
  have hsel := hrate.selects avail
  have hnext := hrate.update avail measured
  have hema := hrate.residEma_update avail measured
  have hb₁ := (loopBounds_run role nominalNs h₁).step (.update avail measured)
  have hb₂ := (loopBounds_run role nominalNs h₂).step (.update avail measured)
  refine ⟨⟨?_, ?_⟩, ?_⟩
  · intro hstates
    by_contra hne
    obtain ⟨js, hjs⟩ := hnext.told_apart_graded hb₁ hb₂ fun h => hne (hema.mp h)
    exact hjs (List.cons.inj (hstates js)).2
  · intro hsame js
    have hloop : OneLoop (clockStep c₁ (.update avail measured)) (clockStep c₂ (.update avail measured)) := by
      rw [hsel] at hswitch₂
      refine .of_switch hrate hsame measured ?_ fun hfree => ?_
      · rw [switch_inBand, switch_inBand, if_neg hswitch₁, if_neg hswitch₂]
      · unfold ClockDisc.switch
        rw [if_neg hswitch₁, if_neg hswitch₂]
        exact (if_neg hfree).trans (if_neg hfree).symm
    show (clockStep c₂ (.update avail measured)).state :: statesAfter _ js =
      (clockStep c₁ (.update avail measured)).state :: statesAfter _ js
    rw [hloop.state]
    exact congrArg _ (hloop.statesAfter js)
  · intro hne hfree
    have hselects : (clockDiscUpdate c₁ avail measured).selects avail ≠ .freerun := by
      rw [clockDiscUpdate_selects]
      exact hfree
    obtain ⟨ms, hms⟩ := hnext.told_apart hb₁ hb₂ (fun h => hne (hema.mp h)) avail hselects
    exact ⟨ms, fun hstates => hms (List.cons.inj hstates).2⟩

/-- A box that was followed perfectly, and one that wandered and came back. -/
def steadyBox : List ClockInput := [.update 2 (some 0)]

def wanderingBox : List ClockInput := [.update 2 (some 100), .update 2 (some (-30))]

/-- Behind the steady box the first four samples of a PHC lock it, behind the wandering one they do not. -/
theorem clock_handover_remembers : ¬ ∀ role nominalNs h₁ h₂ avail measured js,
    let c₁ := clockMachine.run (clockDiscInit role nominalNs) h₁
    let c₂ := clockMachine.run (clockDiscInit role nominalNs) h₂
    c₁.selects avail ≠ c₁.src → c₂.selects avail ≠ c₂.src → c₁.selects avail = c₂.selects avail →
    c₂.dll.appliedPpm = c₁.dll.appliedPpm → 0 < c₁.dll.updates → 0 < c₂.dll.updates →
    statesAfter c₂ (.update avail measured :: js) = statesAfter c₁ (.update avail measured :: js) := by
  intro h
  have hsame := h .master 250000 steadyBox wanderingBox 8 (some 0) (List.replicate 3 (.update 8 (some 0)))
    (by decide +kernel) (by decide +kernel) (by decide +kernel) (by decide +kernel) (by decide +kernel)
    (by decide +kernel)
  revert hsame
  decide +kernel

/-- One sample of the steady box or two. -/
theorem clock_handover_once :
    let c₁ := clockMachine.run (clockDiscInit .master 250000) steadyBox
    let c₂ := clockMachine.run (clockDiscInit .master 250000) (steadyBox ++ steadyBox)
    statesAfter c₂ (.update 8 none :: List.replicate 4 (.update 8 (some 1))) =
      statesAfter c₁ (.update 8 none :: List.replicate 4 (.update 8 (some 1))) :=
  (clock_handover .master 250000 steadyBox (steadyBox ++ steadyBox) 8 none (by decide +kernel)
    (by decide +kernel) rfl (by decide +kernel) (by decide +kernel) (by decide +kernel)).1.mpr
    (by decide +kernel) (List.replicate 4 (.update 8 (some 1)))

end Libreac
