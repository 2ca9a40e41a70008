import Libreac.Burst
import Libreac.Proofs.MasterProofs

/-!
# Proofs: the placement of the burst

At every positive frame rate the placement of the chunks is strictly increasing
(`burstSlot_strictMono`), the linear estimate is at most one above the chunk (`burst_estimate`), and
so the search finds every chunk. Below the burst rate the clamp places the chunks, from it on the
rounded ratio; the two regimes meet in these two lemmas only.
-/

namespace Libreac

variable {g : Geometry} {fps j k pos : ℤ}

/-! ## Over the integers -/

theorem le_burstSlot (fps k : ℤ) : k ≤ burstSlot fps k := by
  unfold burstSlot
  omega

theorem burstSlot_strictMono (h : 0 < fps) (hj : 0 ≤ j) (hjk : j < k) :
    burstSlot fps j < burstSlot fps k := by
  have hstep : (j + 1) * fps ≤ k * fps := Int.mul_le_mul_of_nonneg_right hjk (by omega)
  rw [Int.add_mul] at hstep
  unfold burstSlot
  rcases Int.le_total 500 fps with hfast | hslow
  · have hmul : j * 500 ≤ j * fps := Int.mul_le_mul_of_nonneg_left hfast hj
    omega
  · have hmul : j * fps ≤ j * 500 := Int.mul_le_mul_of_nonneg_left hslow hj
    omega

theorem burstSlot_inj (h : 0 < fps) (hj : 0 ≤ j) (hk : 0 ≤ k)
    (heq : burstSlot fps j = burstSlot fps k) : j = k := by
  rcases Int.lt_trichotomy j k with hlt | rfl | hlt
  · have := burstSlot_strictMono h hj hlt
    omega
  · rfl
  · have := burstSlot_strictMono h hk hlt
    omega

/-- The linear estimate is at most one above the chunk. -/
theorem burst_estimate (h : 0 < fps) (hk : 0 ≤ k) :
    let pos := burstSlot fps k
    let c := min pos ((pos * 500 + fps / 2) / fps)
    c = k ∨ c = k + 1 := by
  dsimp only
  have hge := le_burstSlot fps k
  rcases Int.le_total 500 fps with hfast | hslow
  · have hpos : burstSlot fps k = (k * fps + 250) / 500 := by
      have hmul : k * 500 ≤ k * fps := Int.mul_le_mul_of_nonneg_left hfast hk
      unfold burstSlot
      omega
    have hlow : k ≤ (burstSlot fps k * 500 + fps / 2) / fps := by
      rw [Int.le_ediv_iff_mul_le (by omega)]
      omega
    have hhigh : (burstSlot fps k * 500 + fps / 2) / fps < k + 2 := by
      rw [Int.ediv_lt_iff_lt_mul (by omega), Int.add_mul]
      omega
    omega
  · have hmul : k * fps ≤ k * 500 := Int.mul_le_mul_of_nonneg_left hslow hk
    have hpos : burstSlot fps k = k := by
      unfold burstSlot
      omega
    have hlow : k ≤ (burstSlot fps k * 500 + fps / 2) / fps := by
      rw [Int.le_ediv_iff_mul_le (by omega)]
      omega
    omega

theorem burstIndexAt_sound (h : burstIndexAt g pos = some k) :
    0 ≤ pos ∧ pos ≤ g.burstEnd ∧ 0 ≤ k ∧ k < 341 ∧ burstSlot g.fps k = pos := by
  unfold burstIndexAt at h
  split_ifs at h with hout
  have hk := List.find?_some h
  have hk := of_decide_eq_true hk
  unfold sceneChunks at hk
  omega

/-- The burst ends with its last chunk. -/
theorem burstSlot_le_burstEnd (h : 0 < g.fps) (hend : g.burstEnd = burstSlot g.fps 340) (hk : 0 ≤ k)
    (hlt : k < 341) : burstSlot g.fps k ≤ g.burstEnd := by
  rw [hend]
  rcases eq_or_lt_of_le (show k ≤ 340 by omega) with rfl | hk'
  · exact le_refl _
  · exact (burstSlot_strictMono h hk hk').le

/-- The search finds every chunk. -/
theorem burstIndexAt_complete (h : 0 < g.fps) (hend : g.burstEnd = burstSlot g.fps 340) (hk : 0 ≤ k)
    (hlt : k < 341) : burstIndexAt g (burstSlot g.fps k) ≠ none := by
  have hle := burstSlot_le_burstEnd h hend hk hlt
  have hge := le_burstSlot g.fps k
  have hest := burst_estimate h hk
  unfold burstIndexAt
  rw [if_neg (by omega)]
  dsimp only at hest ⊢
  generalize min (burstSlot g.fps k) ((burstSlot g.fps k * 500 + g.fps / 2) / g.fps) = c at hest
  rw [Ne, List.find?_eq_none]
  intro hnone
  have hmem : k ∈ [c - 1, c, c + 1] := by
    simp only [List.mem_cons, List.not_mem_nil, or_false]
    omega
  have := hnone k hmem
  simp [sceneChunks, hk, hlt] at this

/-- So it answers with the chunk. -/
theorem burstIndexAt_burstSlot (h : 0 < g.fps) (hend : g.burstEnd = burstSlot g.fps 340) (hk : 0 ≤ k)
    (hlt : k < 341) : burstIndexAt g (burstSlot g.fps k) = some k := by
  obtain ⟨c, hc⟩ := Option.ne_none_iff_exists'.mp (burstIndexAt_complete h hend hk hlt)
  obtain ⟨-, -, hc0, -, hslot⟩ := burstIndexAt_sound hc
  rw [hc, burstSlot_inj h hc0 hk hslot]

/-! ## In `int` and `int64_t` -/

theorem asInt_of_le {x : ℤ} (hlow : -2147483648 ≤ x) (hhigh : x < 2147483648) : asInt x = some x :=
  if_pos ⟨hlow, hhigh⟩

theorem asInt64_of_le {x : ℤ} (hlow : -9223372036854775808 ≤ x) (hhigh : x < 9223372036854775808) :
    asInt64 x = some x :=
  if_pos ⟨hlow, hhigh⟩

/-- The products of the placement. -/
theorem burstScaled_bounds (hpos : 0 < fps) (hint : fps < 2147483648) (hk : 0 ≤ k) (hlt : k < 341) :
    0 ≤ k * fps ∧ k * fps ≤ 340 * 2147483647 := by
  have hlow : 0 ≤ k * fps := Int.mul_nonneg hk (by omega)
  have hhigh : k * fps ≤ 340 * 2147483647 :=
    Int.mul_le_mul (by omega) (by omega) (by omega) (by omega)
  exact ⟨hlow, hhigh⟩

theorem burstSlotInt_eq (hpos : 0 < fps) (hint : fps < 2147483648) (hk : 0 ≤ k) (hlt : k < 341) :
    burstSlotInt fps k = some (burstSlot fps k) := by
  obtain ⟨hlow, hhigh⟩ := burstScaled_bounds hpos hint hk hlt
  have hdiv : (k * fps + 250).tdiv 500 = (k * fps + 250) / 500 := Int.tdiv_eq_ediv_of_nonneg (by omega)
  unfold burstSlotInt burstSlot
  rw [asInt64_of_le (by omega) (by omega), Option.bind_eq_bind, Option.bind_some,
    asInt64_of_le (by omega) (by omega), Option.bind_some, hdiv,
    asInt64_of_le (by omega) (by omega), Option.bind_some, asInt_of_le (by omega) (by omega),
    Option.bind_some]
  show some _ = some _
  congr 1
  split_ifs <;> omega

/-- The loop finds what the search over the list of candidates finds. -/
theorem burstSearch_eq (hpos : 0 < fps) (hint : fps < 2147483648) {ds : List ℤ}
    (hds : ∀ d ∈ ds, -2147483648 ≤ k + d ∧ k + d < 2147483648) :
    burstSearch fps pos k ds = some (((ds.map (k + ·)).find? fun c : ℤ =>
      0 ≤ c ∧ c < sceneChunks ∧ burstSlot fps c = pos).getD (-1)) := by
  induction ds with
  | nil => rfl
  | cons d ds ih =>
    obtain ⟨hlow, hhigh⟩ := hds d List.mem_cons_self
    have hrest := ih fun d hd => hds d (List.mem_cons_of_mem _ hd)
    rw [burstSearch, asInt_of_le hlow hhigh, Option.bind_eq_bind, Option.bind_some, List.map_cons]
    by_cases hc : 0 ≤ k + d ∧ k + d < sceneChunks
    · rw [if_pos hc, burstSlotInt_eq hpos hint hc.1 hc.2, Option.bind_some]
      by_cases hslot : burstSlot fps (k + d) = pos
      · rw [if_pos hslot, List.find?_cons_of_pos (by simp [hc, hslot])]
        rfl
      · rw [if_neg hslot, List.find?_cons_of_neg (by simp [hslot]), hrest]
    · rw [if_neg hc, List.find?_cons_of_neg (by rw [decide_eq_true_eq]; tauto), hrest]

theorem burstIndexAtInt_eq (hpos : 0 < g.fps) (hint : g.fps < 2147483648)
    (hend : g.burstEnd = burstSlot g.fps 340) (pos : ℤ) :
    burstIndexAtInt g pos = some ((burstIndexAt g pos).getD (-1)) := by
  unfold burstIndexAtInt burstIndexAt
  split_ifs with hout
  · rfl
  · have hslot : pos ≤ 340 ∨ pos ≤ (340 * g.fps + 250) / 500 := by
      unfold burstSlot at hend
      omega
    have hhalf : g.fps.tdiv 2 = g.fps / 2 := Int.tdiv_eq_ediv_of_nonneg (by omega)
    have hdiv : (pos * 500 + g.fps / 2).tdiv g.fps = (pos * 500 + g.fps / 2) / g.fps :=
      Int.tdiv_eq_ediv_of_nonneg (by omega)
    have hlow : 0 ≤ (pos * 500 + g.fps / 2) / g.fps := Int.ediv_nonneg (by omega) (by omega)
    -- The slots of the burst end at 340 or at 340 fps / 500: the estimate is far inside an int.
    have hhigh : (pos * 500 + g.fps / 2) / g.fps < 171000 := by
      rw [Int.ediv_lt_iff_lt_mul hpos]
      omega
    rw [asInt64_of_le (by omega) (by omega), Option.bind_eq_bind, Option.bind_some, hhalf,
      asInt_of_le (by omega) (by omega), Option.bind_some, asInt64_of_le (by omega) (by omega),
      Option.bind_some, hdiv, asInt64_of_le (by omega) (by omega), Option.bind_some,
      asInt_of_le (by omega) (by omega), Option.bind_some]
    have hmin : (if pos < (pos * 500 + g.fps / 2) / g.fps then pos
        else (pos * 500 + g.fps / 2) / g.fps) = min pos ((pos * 500 + g.fps / 2) / g.fps) := by
      split_ifs <;> omega
    rw [hmin, burstSearch_eq hpos hint]
    · simp only [List.map_cons, List.map_nil, Int.add_zero, Int.sub_eq_add_neg]
    · simp only [List.mem_cons, List.not_mem_nil, or_false, forall_eq_or_imp, forall_eq]
      omega

/-- For every frame rate the init can be given, no value of the two functions overflows, the slots
of the chunks are strictly increasing, and the search is their inverse. -/
theorem burst_inverse (t : MasterTunables) (placeholder : SceneBody) (src : Mac)
    (cfg : Option ConsoleCfg) (fps : Int32) :
    let g := (masterInit t placeholder src cfg fps.toInt).geo
    burstSlotInt g.fps 340 = some g.burstEnd ∧
      (∀ k, 0 ≤ k → k < 341 → burstSlotInt g.fps k = some (burstSlot g.fps k)) ∧
      (∀ j k, 0 ≤ j → j < k → k < 341 → burstSlot g.fps j < burstSlot g.fps k) ∧
      (∀ k, 0 ≤ k → k < 341 → burstIndexAtInt g (burstSlot g.fps k) = some k) ∧
      ∀ pos, (∀ k, 0 ≤ k → k < 341 → burstSlot g.fps k ≠ pos) →
        burstIndexAtInt g pos = some (-1) := by
  intro g
  have hg : g = geometry t (initFps fps.toInt) := by
    obtain ⟨blk, desc, hinit⟩ := masterInit_eq t placeholder src cfg fps.toInt
    exact congrArg Master.geo hinit
  have hpos : 0 < g.fps := by
    rw [hg]
    exact initFps_pos _
  have hint : g.fps < 2147483648 := by
    have hlt := fps.toInt_lt
    rw [hg]
    show initFps fps.toInt < 2147483648
    unfold initFps
    split_ifs <;> omega
  have hend : g.burstEnd = burstSlot g.fps 340 := by
    rw [hg]
    rfl
  refine ⟨?_, fun k hk hlt => burstSlotInt_eq hpos hint hk hlt,
    fun j k hj hjk _ => burstSlot_strictMono hpos hj hjk, fun k hk hlt => ?_, fun pos hnone => ?_⟩
  · rw [hend]
    exact burstSlotInt_eq hpos hint (by omega) (by omega)
  · rw [burstIndexAtInt_eq hpos hint hend, burstIndexAt_burstSlot hpos hend hk hlt]
    rfl
  · have habsent : burstIndexAt g pos = none := by
      rw [Option.eq_none_iff_forall_ne_some]
      intro k hk
      obtain ⟨-, -, hk0, hlt, hslot⟩ := burstIndexAt_sound hk
      exact hnone k hk0 hlt hslot
    rw [burstIndexAtInt_eq hpos hint hend, habsent]
    rfl

end Libreac
