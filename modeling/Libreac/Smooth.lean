import Mathlib.Algebra.Order.Archimedean.Basic
import Mathlib.Tactic.FieldSimp
import Mathlib.Tactic.Linarith
import Mathlib.Tactic.Ring

/-!
# Exponential averages

An exponential average forgets its past by a constant factor at each sample, and never entirely: the
next average is strictly monotone in the last one (`ema_lt_ema`), while samples of zero bring any
average below any bound (`exists_ema_iterate_lt`).
-/

namespace Smooth

variable {K : Type} [Field K] [LinearOrder K] [IsStrictOrderedRing K]

/-- The average after a sample. -/
def ema (α avg x : K) : K := avg + α * (x - avg)

/-- The value, brought into the interval `[-bound, bound]`. -/
def clamp (bound x : K) : K := if bound < x then bound else if x < -bound then -bound else x

variable {α avg a b x bound : K}

omit [LinearOrder K] [IsStrictOrderedRing K] in
theorem ema_eq (α avg x : K) : ema α avg x = (1 - α) * avg + α * x := by
  unfold ema
  ring

theorem ema_nonneg (hα : 0 ≤ α) (hα' : α ≤ 1) (ha : 0 ≤ avg) (hx : 0 ≤ x) : 0 ≤ ema α avg x := by
  rw [ema_eq]
  have hkept := mul_nonneg (sub_nonneg.mpr hα') ha
  have hnew := mul_nonneg hα hx
  exact add_nonneg hkept hnew

theorem ema_lt_ema (hα : α < 1) (h : a < b) (x : K) : ema α a x < ema α b x := by
  rw [ema_eq, ema_eq]
  have hkept := mul_lt_mul_of_pos_left h (sub_pos.mpr hα)
  exact add_lt_add_left hkept _

theorem ema_inj (hα : α < 1) : ema α a x = ema α b x ↔ a = b := by
  constructor
  · intro h
    rcases lt_trichotomy a b with hab | hab | hab
    · exact absurd h (ema_lt_ema hα hab x).ne
    · exact hab
    · exact absurd h (ema_lt_ema hα hab x).ne'
  · rintro rfl
    rfl

omit [LinearOrder K] [IsStrictOrderedRing K] in
theorem ema_iterate_zero (α a : K) (n : ℕ) : (fun avg => ema α avg 0)^[n] a = (1 - α) ^ n * a := by
  induction n with
  | zero => simp
  | succ n ih =>
    rw [Function.iterate_succ_apply', ih, ema_eq]
    ring

/-- Samples of zero bring the average below any bound. -/
theorem exists_ema_iterate_lt [Archimedean K] (hα : 0 < α) (hα' : α ≤ 1) (ha : 0 ≤ a) (hbound : 0 < bound) :
    ∃ n, (fun avg => ema α avg 0)^[n] a < bound := by
  obtain ⟨n, hn⟩ := exists_pow_lt_of_lt_one (div_pos hbound (show (0 : K) < a + 1 by linarith))
    (show 1 - α < 1 by linarith)
  refine ⟨n, ?_⟩
  rw [ema_iterate_zero]
  have hpow : 0 ≤ (1 - α) ^ n := pow_nonneg (by linarith) n
  calc (1 - α) ^ n * a ≤ (1 - α) ^ n * (a + 1) := mul_le_mul_of_nonneg_left (by linarith) hpow
    _ < bound := (lt_div_iff₀ (by linarith)).mp hn

theorem clamp_le (hb : 0 ≤ bound) (x : K) : clamp bound x ≤ bound := by
  unfold clamp
  split_ifs <;> linarith

theorem le_clamp (hb : 0 ≤ bound) (x : K) : -bound ≤ clamp bound x := by
  unfold clamp
  split_ifs <;> linarith

/-- A clamped value lies between zero and the value. -/
theorem clamp_between (hb : 0 ≤ bound) (x : K) :
    (0 ≤ x → 0 ≤ clamp bound x ∧ clamp bound x ≤ x) ∧ (x ≤ 0 → x ≤ clamp bound x ∧ clamp bound x ≤ 0) := by
  unfold clamp
  refine ⟨fun hx => ?_, fun hx => ?_⟩
  · split_ifs <;> constructor <;> linarith
  · split_ifs <;> constructor <;> linarith

omit [IsStrictOrderedRing K] in
theorem clamp_of_mem (h : -bound ≤ x) (h' : x ≤ bound) : clamp bound x = x := by
  unfold clamp
  rw [if_neg (not_lt.mpr h'), if_neg (not_lt.mpr h)]

theorem clamp_neg (hb : 0 ≤ bound) (x : K) : clamp bound (-x) = -clamp bound x := by
  unfold clamp
  split_ifs <;> linarith

theorem abs_clamp_le (hb : 0 ≤ bound) (x : K) : |clamp bound x| ≤ bound :=
  abs_le.mpr ⟨le_clamp hb x, clamp_le hb x⟩

/-! ## Pulling -/

/-- `a` comes toward `b` without passing it. -/
def Toward (a a' b : K) : Prop := (a ≤ b → a ≤ a' ∧ a' ≤ b) ∧ (b ≤ a → b ≤ a' ∧ a' ≤ a)

/-- A value in the interval that is pulled up toward `x`, and clamped, is pulled as much toward the clamped
`x`, and not past it. -/
theorem clamp_pull_up {κ : K} (hκ : 0 ≤ κ) (hκ' : κ ≤ 1) (hb : 0 ≤ bound) (hlow : -bound ≤ a)
    (h : a ≤ clamp bound x) :
    κ * (clamp bound x - a) ≤ clamp bound (a + κ * (x - a)) - a ∧
      clamp bound (a + κ * (x - a)) ≤ clamp bound x := by
  have hpart : κ * (clamp bound x - a) ≤ clamp bound x - a := by
    have hrest := mul_nonneg (sub_nonneg.mpr hκ') (sub_nonneg.mpr h)
    linarith
  rcases lt_or_ge x (-bound) with hx | hx
  · -- Then `a` is the lower end, and `x` lies below it.
    have hc : clamp bound x ≤ -bound := by
      unfold clamp
      split_ifs <;> linarith
    have hdown := mul_nonneg hκ (show 0 ≤ a - x by linarith)
    have ht : a + κ * (x - a) ≤ -bound := by linarith
    have hct : clamp bound (a + κ * (x - a)) = clamp bound x := by
      unfold clamp at *
      split_ifs at * <;> linarith
    rw [hct]
    exact ⟨hpart, le_refl _⟩
  · have hcx : clamp bound x ≤ x := by
      unfold clamp
      split_ifs <;> linarith
    have hmore := mul_le_mul_of_nonneg_left (sub_le_sub_right hcx a) hκ
    have hkept := mul_nonneg (sub_nonneg.mpr hκ') (show 0 ≤ x - a by linarith)
    have hup := mul_nonneg hκ (show 0 ≤ clamp bound x - a by linarith)
    unfold clamp at *
    split_ifs at * <;> constructor <;> linarith

/-- So is one that is pulled down. -/
theorem clamp_pull_down {κ : K} (hκ : 0 ≤ κ) (hκ' : κ ≤ 1) (hb : 0 ≤ bound) (hhigh : a ≤ bound)
    (h : clamp bound x ≤ a) :
    κ * (a - clamp bound x) ≤ a - clamp bound (a + κ * (x - a)) ∧
      clamp bound x ≤ clamp bound (a + κ * (x - a)) := by
  have hneg : -a + κ * (-x - -a) = -(a + κ * (x - a)) := by ring
  have hup := clamp_pull_up (a := -a) (x := -x) hκ hκ' hb (neg_le_neg hhigh)
    (by rw [clamp_neg hb]; exact neg_le_neg h)
  rw [hneg, clamp_neg hb, clamp_neg hb] at hup
  constructor <;> linarith [hup.1, hup.2]

end Smooth
