import Libreac.Deadline
import Mathlib.Algebra.BigOperators.Group.List.Basic
import Mathlib.Tactic.Ring

/-!
# Proofs: no slot and no fraction is lost

A remainder that is carried from one addition to the next loses nothing (`div_add_carry`): the launch grid
adds up to whole seconds however it is steered and re-based, and a deadline that is moved past a debt
accounts for every slot of it.
-/

namespace Libreac.Egress

open Reactive (Event)

/-- The carry of the remainders is the quotient of the sum. -/
theorem div_add_carry (a r q : ℕ) : a / q + (a % q + r) / q = (a + r) / q := by
  rcases Nat.eq_zero_or_pos q with rfl | hq
  · simp
  · conv_rhs => rw [← Nat.div_add_mod a q, Nat.add_assoc, Nat.mul_add_div hq]

/-! ## One call on the grid -/

/-- What the initialisation sets and no call changes, and the range of the remainder. -/
structure GridOk (fps : ℕ) (g : EtfGrid) : Prop where
  pos : 0 < fps
  range : fps < 2147483648
  rate : g.fps.toNat = fps
  whole : g.whole.toNat = 1000000000 / fps
  rem : g.rem.toNat = 1000000000 % fps
  frac : g.frac.toNat < fps

/-- The call advances by the exact grid. -/
def byGrid : GridInput → Bool
  | .advance steerNs => steerNs ≤ 0
  | .rebase _ => true

/-- What the call steers by. -/
def steerOf : GridInput → ℕ
  | .advance steerNs => steerNs.toNat
  | .rebase _ => 0

/-- The call is a re-base. -/
def GridInput.isRebase : GridInput → Bool
  | .advance _ => false
  | .rebase _ => true

section Grid

variable {fps : ℕ} {g : EtfGrid}

theorem gridOk_init {fps : ℤ} (hpos : 0 < fps) (hrange : fps < 2147483648) (baseNs : UInt64) :
    ∃ g, etfGridInit fps baseNs = some g ∧ GridOk fps.toNat g ∧ g.launchNs = baseNs ∧ g.frac = 0 := by
  have hfps : (UInt32.ofInt fps).toNat = fps.toNat := by
    rw [UInt32.ofInt, UInt32.toNat_ofNat']
    omega
  have hfps' : (UInt32.ofInt fps).toUInt64.toNat = fps.toNat := by rw [UInt32.toNat_toUInt64, hfps]
  have hdiv := Nat.div_le_self 1000000000 fps.toNat
  have hmod := Nat.mod_le 1000000000 fps.toNat
  have hbillion : (1000000000 : UInt64).toNat = 1000000000 := rfl
  refine ⟨_, if_neg (by omega), ⟨by omega, by omega, hfps, ?_, ?_, ?_⟩, rfl, rfl⟩
  · rw [UInt64.toNat_toUInt32, UInt64.toNat_div, hfps', hbillion]
    exact Nat.mod_eq_of_lt (by omega)
  · rw [UInt64.toNat_toUInt32, UInt64.toNat_mod, hfps', hbillion]
    exact Nat.mod_eq_of_lt (by omega)
  · show 0 < fps.toNat
    omega

/-- A steered advance leaves the remainder. -/
theorem GridOk.steered (h : GridOk fps g) {steerNs : ℤ} (hs : 0 < steerNs) :
    GridOk fps (etfGridAdvance g steerNs) ∧ (etfGridAdvance g steerNs).frac = g.frac ∧
      (etfGridAdvance g steerNs).launchNs.toNat =
        (g.launchNs.toNat + steerNs.toNat) % 18446744073709551616 := by
  unfold etfGridAdvance
  rw [if_pos hs]
  refine ⟨⟨h.pos, h.range, h.rate, h.whole, h.rem, h.frac⟩, rfl, ?_⟩
  simp only [UInt64.toNat_add, UInt64.ofInt, UInt64.toNat_ofNat']
  omega

/-- An advance by the grid carries what the remainders make. -/
theorem GridOk.unsteered (h : GridOk fps g) {steerNs : ℤ} (hs : steerNs ≤ 0) :
    GridOk fps (etfGridAdvance g steerNs) ∧
      (etfGridAdvance g steerNs).frac.toNat = (g.frac.toNat + 1000000000 % fps) % fps ∧
      (etfGridAdvance g steerNs).launchNs = g.launchNs +
        UInt64.ofNat (1000000000 / fps + (g.frac.toNat + 1000000000 % fps) / fps) := by
  obtain ⟨hpos, hrange, hfps, hwhole, hrem, hfrac⟩ := h
  have hrlt : 1000000000 % fps < fps := Nat.mod_lt _ hpos
  have hsum : (g.frac + g.rem).toNat = g.frac.toNat + 1000000000 % fps := by
    rw [UInt32.toNat_add, hrem]
    omega
  have hcast : g.whole.toUInt64 = UInt64.ofNat (1000000000 / fps) := by
    rw [← hwhole, ← UInt64.toNat_inj, UInt32.toNat_toUInt64, UInt64.toNat_ofNat']
    have := g.whole.toNat_lt
    omega
  unfold etfGridAdvance
  rw [if_neg (by omega)]
  dsimp only
  by_cases hcarry : g.fps ≤ g.frac + g.rem
  · rw [if_pos hcarry]
    have hle := UInt32.le_iff_toNat_le.mp hcarry
    rw [hsum, hfps] at hle
    have hdiv : (g.frac.toNat + 1000000000 % fps) / fps = 1 := by
      rw [Nat.div_eq_iff hpos]
      omega
    have hmod : (g.frac.toNat + 1000000000 % fps) % fps = g.frac.toNat + 1000000000 % fps - fps := by
      rw [Nat.mod_eq_sub_mod hle, Nat.mod_eq_of_lt (by omega)]
    have hsub : (g.frac + g.rem - g.fps).toNat = g.frac.toNat + 1000000000 % fps - fps := by
      rw [UInt32.toNat_sub_of_le _ _ hcarry, hsum, hfps]
    refine ⟨⟨hpos, hrange, hfps, hwhole, hrem, ?_⟩, hsub.trans hmod.symm, ?_⟩
    · show (g.frac + g.rem - g.fps).toNat < fps
      omega
    · show g.launchNs + g.whole.toUInt64 + 1 = _
      rw [hdiv, UInt64.ofNat_add, ← UInt64.add_assoc, hcast]
      rfl
  · rw [if_neg hcarry]
    have hlt := UInt32.lt_iff_toNat_lt.mp (UInt32.not_le.mp hcarry)
    rw [hsum, hfps] at hlt
    refine ⟨⟨hpos, hrange, hfps, hwhole, hrem, ?_⟩, ?_, ?_⟩
    · show (g.frac + g.rem).toNat < fps
      omega
    · show (g.frac + g.rem).toNat = _
      rw [hsum, Nat.mod_eq_of_lt hlt]
    · show g.launchNs + g.whole.toUInt64 = _
      rw [Nat.div_eq_of_lt hlt, Nat.add_zero, hcast]

/-- The grid over the integers. -/
def EtfGrid.exact (g : EtfGrid) : Libreac.EtfGrid where
  launchNs := g.launchNs.toNat
  baseNs := g.baseNs.toNat
  slot := g.slot.toNat
  whole := g.whole.toNat
  rem := g.rem.toNat
  frac := g.frac.toNat
  fps := g.fps.toNat

/-- Its remainder is the same, and its launch time is the same up to the width of the clock. -/
theorem GridOk.exact (h : GridOk fps g) (steerNs : ℤ) :
    (Libreac.etfGridAdvance g.exact steerNs).frac = (etfGridAdvance g steerNs).frac.toNat ∧
      (Libreac.etfGridAdvance g.exact steerNs).launchNs % 18446744073709551616 =
        (etfGridAdvance g steerNs).launchNs.toNat := by
  by_cases hs : 0 < steerNs
  · obtain ⟨-, hfrac, hlaunch⟩ := h.steered hs
    unfold Libreac.etfGridAdvance
    rw [if_pos hs, hfrac, hlaunch]
    refine ⟨rfl, ?_⟩
    show ((g.launchNs.toNat : ℤ) + steerNs) % 18446744073709551616 = _
    omega
  · obtain ⟨-, hfrac, hlaunch⟩ := h.unsteered (show steerNs ≤ 0 by omega)
    have hrlt : 1000000000 % fps < fps := Nat.mod_lt _ h.pos
    have hflt := h.frac
    unfold Libreac.etfGridAdvance EtfGrid.exact
    rw [if_neg hs, hfrac, hlaunch, h.rate, h.rem, h.whole, UInt64.toNat_add, UInt64.toNat_ofNat']
    dsimp only
    generalize 1000000000 % fps = rem at hrlt ⊢
    generalize 1000000000 / fps = whole
    by_cases hcarry : fps ≤ g.frac.toNat + rem
    · have hdiv : (g.frac.toNat + rem) / fps = 1 := by
        rw [Nat.div_eq_iff h.pos]
        omega
      have hmod : (g.frac.toNat + rem) % fps = g.frac.toNat + rem - fps := by
        rw [Nat.mod_eq_sub_mod hcarry, Nat.mod_eq_of_lt (by omega)]
      rw [if_pos (by omega), hdiv, hmod]
      dsimp only
      constructor <;> omega
    · have hdiv : (g.frac.toNat + rem) / fps = 0 := Nat.div_eq_of_lt (by omega)
      have hmod : (g.frac.toNat + rem) % fps = g.frac.toNat + rem := Nat.mod_eq_of_lt (by omega)
      rw [if_neg (by omega), hdiv, hmod]
      dsimp only
      constructor <;> omega

/-! ## Runs of the grid -/

/-- The launch time `n` advances of the grid and the steers behind a base. -/
def launchAt (fps base f₀ steers n : ℕ) : ℕ :=
  (base + steers + n * (1000000000 / fps) + (f₀ + n * (1000000000 % fps)) / fps) % 18446744073709551616

/-- Where a grid is after `n` of its advances and the steers from another. -/
structure OnGrid (fps : ℕ) (g g' : EtfGrid) (steers n : ℕ) : Prop where
  ok : GridOk fps g'
  frac : g'.frac.toNat = (g.frac.toNat + n * (1000000000 % fps)) % fps
  launch : g'.launchNs.toNat = launchAt fps g.launchNs.toNat g.frac.toNat steers n

theorem GridOk.onGrid (h : GridOk fps g) : OnGrid fps g g 0 0 := by
  refine ⟨h, ?_, ?_⟩
  · rw [Nat.zero_mul, Nat.add_zero, Nat.mod_eq_of_lt h.frac]
  · have hlt := g.launchNs.toNat_lt
    unfold launchAt
    rw [Nat.zero_mul, Nat.zero_mul, Nat.add_zero, Nat.add_zero, Nat.div_eq_of_lt h.frac]
    exact (Nat.mod_eq_of_lt hlt).symm

variable {g' : EtfGrid} {steers n : ℕ}

theorem OnGrid.steered (h : OnGrid fps g g' steers n) {steerNs : ℤ} (hs : 0 < steerNs) :
    OnGrid fps g (etfGridAdvance g' steerNs) (steers + steerNs.toNat) n := by
  obtain ⟨hok, hfrac, hlaunch⟩ := h.ok.steered hs
  refine ⟨hok, by rw [hfrac, h.frac], ?_⟩
  rw [hlaunch, h.launch]
  unfold launchAt
  omega

theorem OnGrid.unsteered (h : OnGrid fps g g' steers n) {steerNs : ℤ} (hs : steerNs ≤ 0) :
    OnGrid fps g (etfGridAdvance g' steerNs) steers (n + 1) := by
  obtain ⟨hok, hfrac, hlaunch⟩ := h.ok.unsteered hs
  have hnext : g.frac.toNat + (n + 1) * (1000000000 % fps) =
      g.frac.toNat + n * (1000000000 % fps) + 1000000000 % fps := by ring
  refine ⟨hok, ?_, ?_⟩
  · rw [hfrac, h.frac, hnext, Nat.mod_add_mod]
  · have hcarry := div_add_carry (g.frac.toNat + n * (1000000000 % fps)) (1000000000 % fps) fps
    have hwhole : (n + 1) * (1000000000 / fps) = n * (1000000000 / fps) + 1000000000 / fps := by ring
    rw [hlaunch, UInt64.toNat_add, UInt64.toNat_ofNat', h.launch, h.frac]
    unfold launchAt
    rw [hnext, hwhole, ← hcarry]
    omega

/-- Calls that do not re-base. -/
theorem OnGrid.run (js : List GridInput) (hjs : ∀ j ∈ js, j.isRebase = false) :
    ∀ {g' : EtfGrid} {steers n : ℕ}, OnGrid fps g g' steers n →
      OnGrid fps g (gridMachine.run g' js) (steers + (js.map steerOf).sum)
        (n + js.countP byGrid) := by
  induction js with
  | nil => exact fun h => h
  | cons j js ih =>
    intro g' steers n h
    have hjs' : ∀ j ∈ js, j.isRebase = false := fun j hj => hjs j (List.mem_cons_of_mem _ hj)
    cases j with
    | rebase nowNs => exact absurd (hjs _ List.mem_cons_self) nofun
    | advance steerNs =>
      rw [gridMachine.run_cons, List.map_cons, List.sum_cons, ← Nat.add_assoc]
      by_cases hs : 0 < steerNs
      · rw [List.countP_cons_of_neg (by simpa [byGrid] using hs)]
        exact ih hjs' (h.steered hs)
      · have hzero : steerOf (.advance steerNs) = 0 := by
          show steerNs.toNat = 0
          omega
        rw [List.countP_cons_of_pos (by simpa [byGrid] using hs), hzero, Nat.add_zero,
          ← Nat.add_assoc, Nat.add_right_comm]
        exact ih hjs' (h.unsteered (by omega))

/-- A re-base keeps the remainder and advances once. -/
theorem GridOk.rebase (h : GridOk fps g) (nowNs : UInt64) :
    OnGrid fps { g with baseNs := nowNs, launchNs := nowNs, slot := 0 } (etfGridRebase g nowNs) 0 1 := by
  have hmoved : GridOk fps { g with baseNs := nowNs, launchNs := nowNs, slot := 0 } :=
    ⟨h.pos, h.range, h.rate, h.whole, h.rem, h.frac⟩
  exact hmoved.onGrid.unsteered (le_refl 0)

/-- Every call keeps what the initialisation set, and moves the remainder as far as it advances the grid. -/
theorem GridOk.step (h : GridOk fps g) (i : GridInput) :
    GridOk fps (gridStep g i) ∧ (gridStep g i).frac.toNat =
      (g.frac.toNat + (if byGrid i then 1000000000 % fps else 0)) % fps := by
  cases i with
  | rebase nowNs =>
    have hbase := h.rebase nowNs
    refine ⟨hbase.ok, hbase.frac.trans ?_⟩
    rw [Nat.one_mul]
    rfl
  | advance steerNs =>
    by_cases hs : 0 < steerNs
    · obtain ⟨hok, hfrac, -⟩ := h.steered hs
      refine ⟨hok, ?_⟩
      rw [if_neg (by simpa [byGrid] using hs), Nat.add_zero, Nat.mod_eq_of_lt h.frac]
      exact congrArg UInt32.toNat hfrac
    · obtain ⟨hok, hfrac, -⟩ := h.unsteered (show steerNs ≤ 0 by omega)
      refine ⟨hok, ?_⟩
      rw [if_pos (by simpa [byGrid] using hs)]
      exact hfrac

theorem GridOk.run (h : GridOk fps g) (is : List GridInput) :
    GridOk fps (gridMachine.run g is) ∧ (gridMachine.run g is).frac.toNat =
      (g.frac.toNat + is.countP byGrid * (1000000000 % fps)) % fps := by
  induction is generalizing g with
  | nil =>
    refine ⟨h, ?_⟩
    rw [List.countP_nil, Nat.zero_mul, Nat.add_zero]
    exact (Nat.mod_eq_of_lt h.frac).symm
  | cons i is ih =>
    obtain ⟨hok, hfrac⟩ := h.step i
    obtain ⟨hok', hfrac'⟩ := ih hok
    refine ⟨hok', ?_⟩
    rw [gridMachine.run_cons, gridMachine_step, hfrac', hfrac, Nat.mod_add_mod]
    by_cases hi : byGrid i = true
    · rw [List.countP_cons_of_pos hi, if_pos hi]
      congr 1
      ring
    · rw [List.countP_cons_of_neg hi, if_neg hi, Nat.add_zero]

/-! ## What the advances contribute -/

/-- One call of a run. -/
abbrev GridEvent := Event EtfGrid GridInput Unit

/-- By how much the call moved the launch time. -/
def GridEvent.gain (e : GridEvent) : ℕ :=
  match e.input with
  | .advance _ => (e.post.launchNs - e.pre.launchNs).toNat
  | .rebase nowNs => (e.post.launchNs - nowNs).toNat

theorem GridOk.gain (h : GridOk fps g) {i : GridInput} (hi : byGrid i = true) :
    GridEvent.gain (gridMachine.event g i) =
      1000000000 / fps + (g.frac.toNat + 1000000000 % fps) / fps := by
  have hsmall : 1000000000 / fps + (g.frac.toNat + 1000000000 % fps) / fps < 18446744073709551616 := by
    have hdiv := Nat.div_le_self 1000000000 fps
    have hdiv' := Nat.div_le_self (g.frac.toNat + 1000000000 % fps) fps
    have hmod := Nat.mod_lt 1000000000 h.pos
    have hfrac := h.frac
    have hrange := h.range
    omega
  have hback : ∀ launch : UInt64,
      (launch + UInt64.ofNat (1000000000 / fps + (g.frac.toNat + 1000000000 % fps) / fps) - launch).toNat =
        1000000000 / fps + (g.frac.toNat + 1000000000 % fps) / fps := by
    intro launch
    rw [UInt64.add_comm, UInt64.add_sub_cancel, UInt64.toNat_ofNat', Nat.mod_eq_of_lt hsmall]
  cases i with
  | advance steerNs =>
    have hs : steerNs ≤ 0 := by simpa [byGrid] using hi
    show ((etfGridAdvance g steerNs).launchNs - g.launchNs).toNat = _
    rw [(h.unsteered hs).2.2, hback]
  | rebase nowNs =>
    have hmoved : GridOk fps { g with baseNs := nowNs, launchNs := nowNs, slot := 0 } :=
      ⟨h.pos, h.range, h.rate, h.whole, h.rem, h.frac⟩
    show ((etfGridRebase g nowNs).launchNs - nowNs).toNat = _
    unfold etfGridRebase
    rw [(hmoved.unsteered (le_refl 0)).2.2, hback]

/-- The gains of the advances of the grid among some calls. -/
def gridGains (g : EtfGrid) (is : List GridInput) : List ℕ :=
  ((gridMachine.trace g is).filter fun e => byGrid e.input).map GridEvent.gain

theorem GridOk.gains (h : GridOk fps g) (is : List GridInput) :
    (gridGains g is).sum = is.countP byGrid * (1000000000 / fps) +
      (g.frac.toNat + is.countP byGrid * (1000000000 % fps)) / fps := by
  induction is generalizing g with
  | nil =>
    rw [List.countP_nil, Nat.zero_mul, Nat.zero_mul, Nat.add_zero, Nat.div_eq_of_lt h.frac]
    rfl
  | cons i is ih =>
    obtain ⟨hok, hfrac⟩ := h.step i
    have hrest := ih hok
    unfold gridGains at hrest ⊢
    rw [gridMachine.trace_cons]
    by_cases hi : byGrid i = true
    · rw [List.filter_cons_of_pos (by exact hi), List.map_cons, List.sum_cons, h.gain hi,
        List.countP_cons_of_pos hi]
      rw [gridMachine_step, hrest, hfrac, if_pos hi]
      have hcarry := div_add_carry (g.frac.toNat + 1000000000 % fps)
        (is.countP byGrid * (1000000000 % fps)) fps
      have hnext : g.frac.toNat + (is.countP byGrid + 1) * (1000000000 % fps) =
          g.frac.toNat + 1000000000 % fps + is.countP byGrid * (1000000000 % fps) := by ring
      rw [hnext, ← hcarry]
      ring
    · rw [List.filter_cons_of_neg (by exact hi), List.countP_cons_of_neg hi]
      rw [gridMachine_step, hrest, hfrac, if_neg hi, Nat.add_zero, Nat.mod_eq_of_lt h.frac]

end Grid

/-- The launch grid is exact: wherever it was based last, the launch time is the base, the steers and the
floor of the advances; `fps` advances make a second; no remainder is lost or counted twice. -/
theorem launch_grid_exact {fps : ℤ} (hpos : 0 < fps) (hrange : fps < 2147483648) (baseNs : UInt64) :
    ∃ g₀, etfGridInit fps baseNs = some g₀ ∧
      (∀ is, let g := gridMachine.run g₀ is
        g.frac.toNat < fps.toNat ∧ g.frac.toNat + g.rem.toNat < 4294967296 ∧
          g.frac.toNat = is.countP byGrid * (1000000000 % fps.toNat) % fps.toNat) ∧
      (∀ js, (∀ j ∈ js, j.isRebase = false) →
        (gridMachine.run g₀ js).launchNs.toNat =
          launchAt fps.toNat baseNs.toNat 0 (js.map steerOf).sum (js.countP byGrid)) ∧
      (∀ is nowNs js, (∀ j ∈ js, j.isRebase = false) →
        (gridMachine.run g₀ (is ++ .rebase nowNs :: js)).launchNs.toNat =
          launchAt fps.toNat nowNs.toNat (gridMachine.run g₀ is).frac.toNat (js.map steerOf).sum
            (1 + js.countP byGrid)) ∧
      ∀ is js, js.countP byGrid = fps.toNat → (gridGains (gridMachine.run g₀ is) js).sum = 1000000000 := by
  obtain ⟨g₀, hinit, hok, hbase, hzero⟩ := gridOk_init hpos hrange baseNs
  refine ⟨g₀, hinit, ?_, ?_, ?_, ?_⟩
  · intro is g
    obtain ⟨hrun, hfrac⟩ := hok.run is
    have hlt : g.frac.toNat < fps.toNat := hrun.frac
    have hrem : g.rem.toNat < fps.toNat := by
      rw [hrun.rem]
      exact Nat.mod_lt 1000000000 hrun.pos
    refine ⟨hlt, by omega, hfrac.trans ?_⟩
    rw [hzero, UInt32.toNat_zero, Nat.zero_add]
  · intro js hjs
    have hrun := (hok.onGrid.run js hjs).launch
    rw [hbase, hzero, Nat.zero_add, Nat.zero_add] at hrun
    exact hrun
  · intro is nowNs js hjs
    have hrun := (((hok.run is).1.rebase nowNs).run js hjs).launch
    rw [Nat.zero_add] at hrun
    rw [gridMachine.run_append]
    exact hrun
  · intro is js hjs
    have hrun := (hok.run is).1
    rw [hrun.gains js, hjs]
    have hdiv := Nat.div_add_mod 1000000000 fps.toNat
    rw [Nat.mul_comm fps.toNat (1000000000 % fps.toNat), Nat.add_mul_div_right _ _ hrun.pos,
      Nat.div_eq_of_lt hrun.frac]
    omega

theorem launch_grid_exact_cd :
    ∃ g₀, etfGridInit 3675 0 = some g₀ ∧
      (∀ is, let g := gridMachine.run g₀ is
        g.frac.toNat < 3675 ∧ g.frac.toNat + g.rem.toNat < 4294967296 ∧
          g.frac.toNat = is.countP byGrid * (1000000000 % 3675) % 3675) ∧
      (∀ js, (∀ j ∈ js, j.isRebase = false) →
        (gridMachine.run g₀ js).launchNs.toNat =
          launchAt 3675 0 0 (js.map steerOf).sum (js.countP byGrid)) ∧
      (∀ is nowNs js, (∀ j ∈ js, j.isRebase = false) →
        (gridMachine.run g₀ (is ++ .rebase nowNs :: js)).launchNs.toNat =
          launchAt 3675 nowNs.toNat (gridMachine.run g₀ is).frac.toNat (js.map steerOf).sum
            (1 + js.countP byGrid)) ∧
      ∀ is js, js.countP byGrid = 3675 → (gridGains (gridMachine.run g₀ is) js).sum = 1000000000 :=
  launch_grid_exact (show (0 : ℤ) < 3675 by omega) (by omega) 0

/-! ## The end of a slot -/

/-- One slot of a run. -/
abbrev SlotEvent := Event SlotLoop UInt64 Unit

/-- The deadline the slot advances to. -/
def slotDue (e : SlotEvent) : UInt64 := e.pre.deadline + e.pre.periodNs

/-- The slot ended past it. -/
def slotLate (e : SlotEvent) : Bool := slotDue e < e.input

/-- The debt was within the budget. -/
def slotRepaid (e : SlotEvent) : Bool :=
  slotLate e && { e.pre with deadline := slotDue e }.repays e.input

/-- The deadline was re-based. -/
def slotRebased (e : SlotEvent) : Bool :=
  slotLate e && !{ e.pre with deadline := slotDue e }.repays e.input

/-- How many slots were due, and how far into the last of them the slot ended. -/
def slotOwed (e : SlotEvent) : ℕ := (e.input - slotDue e).toNat / e.pre.periodNs.toNat + 1

def slotRemainder (e : SlotEvent) : ℕ := (e.input - slotDue e).toNat % e.pre.periodNs.toNat

/-- The slots a run abandoned, and what it lost of a slot at each re-base. -/
def slotsAbandoned (log : List SlotEvent) : ℕ := ((log.filter slotRebased).map slotOwed).sum

def slotRemainders (log : List SlotEvent) : List ℕ := (log.filter slotRebased).map slotRemainder

section Slots

variable {p : SlotLoop} {now : UInt64} {e : SlotEvent} {log : List SlotEvent}

/-- A late slot is repaid or re-based. -/
theorem slotLate_cases (e : SlotEvent) :
    slotLate e = false ∧ slotRepaid e = false ∧ slotRebased e = false ∨
      slotLate e = true ∧ slotRepaid e = true ∧ slotRebased e = false ∨
      slotLate e = true ∧ slotRepaid e = false ∧ slotRebased e = true := by
  unfold slotRepaid slotRebased
  cases slotLate e <;> cases SlotLoop.repays { e.pre with deadline := slotDue e } e.input <;> simp

/-- What the end of a slot does on the thread backend. -/
structure SlotMove (p : SlotLoop) (e : SlotEvent) (p' : SlotLoop) : Prop where
  periodNs : p'.periodNs = p.periodNs
  budget : p'.catchupMaxSlots = p.catchupMaxSlots
  backend : p'.backend = p.backend
  deadline : p'.deadline = if slotRebased e then e.input + p.periodNs else slotDue e
  lateWakes : p'.lateWakes = p.lateWakes + if slotLate e then 1 else 0
  slotsCatchup : p'.slotsCatchup = p.slotsCatchup + if slotRepaid e then 1 else 0
  slotsDropped : p'.slotsDropped =
    p.slotsDropped + if slotRebased e then (e.input - slotDue e) / p.periodNs + 1 else 0

theorem slotEnd_move (now : UInt64) (hthread : p.backend = .thread) :
    SlotMove p (slotMachine.event p now) (slotEnd p none now) := by
  have hadvance : p.advance none = { p with deadline := slotDue (slotMachine.event p now) } := by
    unfold SlotLoop.advance
    rw [hthread]
    rfl
  unfold slotEnd
  rw [hadvance]
  dsimp only
  rcases slotLate_cases (slotMachine.event p now) with ⟨hlate, hrepaid, hrebased⟩ | ⟨hlate, hrepaid, hrebased⟩ |
    ⟨hlate, hrepaid, hrebased⟩
  · have hnot : ¬ slotDue (slotMachine.event p now) < now := of_decide_eq_false hlate
    rw [if_neg hnot]
    exact ⟨rfl, rfl, rfl, by rw [hrebased]; rfl, by rw [hlate]; simp, by rw [hrepaid]; simp,
      by rw [hrebased]; simp⟩
  · have hpast : slotDue (slotMachine.event p now) < now := of_decide_eq_true hlate
    have hrepays : SlotLoop.repays { p with deadline := slotDue (slotMachine.event p now) } now = true := by
      unfold slotRepaid at hrepaid
      rw [hlate, Bool.true_and] at hrepaid
      exact hrepaid
    rw [if_pos hpast, if_pos hrepays]
    exact ⟨rfl, rfl, rfl, by rw [hrebased]; rfl, by rw [hlate]; rfl, by rw [hrepaid]; rfl,
      by rw [hrebased]; simp [SlotLoop.noteDebt]⟩
  · have hpast : slotDue (slotMachine.event p now) < now := of_decide_eq_true hlate
    have hrepays : ¬ SlotLoop.repays { p with deadline := slotDue (slotMachine.event p now) } now = true := by
      unfold slotRebased at hrebased
      rw [hlate, Bool.true_and, Bool.not_eq_true'] at hrebased
      rw [Bool.not_eq_true]
      exact hrebased
    rw [if_pos hpast, if_neg hrepays]
    unfold SlotLoop.rebase SlotLoop.noteDebt
    dsimp only
    rw [hthread]
    exact ⟨rfl, rfl, hthread.symm, by rw [hrebased]; rfl, by rw [hlate]; rfl, by rw [hrepaid]; simp,
      by rw [hrebased]; rfl⟩

/-- A re-base moves the deadline by the slots it counts and the rest of one. -/
theorem rebase_accounts (h : slotRebased e = true) :
    (e.input + e.pre.periodNs).toNat = ((slotDue e).toNat + slotOwed e * e.pre.periodNs.toNat +
      slotRemainder e) % 18446744073709551616 := by
  have hlate : slotLate e = true := by
    unfold slotRebased at h
    exact (Bool.and_eq_true_iff.mp h).1
  have hpast : slotDue e < e.input := of_decide_eq_true hlate
  have hle := UInt64.lt_iff_toNat_lt.mp hpast
  have hsub := UInt64.toNat_sub_of_le _ _ (UInt64.le_iff_toNat_le.mpr hle.le)
  have hdiv := Nat.div_add_mod (e.input - slotDue e).toNat e.pre.periodNs.toNat
  have howed : slotOwed e * e.pre.periodNs.toNat =
      e.pre.periodNs.toNat * ((e.input - slotDue e).toNat / e.pre.periodNs.toNat) + e.pre.periodNs.toNat := by
    unfold slotOwed
    ring
  rw [UInt64.toNat_add, howed]
  unfold slotRemainder
  congr 1
  omega

/-- The slots that are owed are those whose instant has come. -/
theorem owed_iff (hP : 0 < e.pre.periodNs.toNat) (h : slotLate e = true) (k : ℕ) :
    (slotDue e).toNat + k * e.pre.periodNs.toNat ≤ e.input.toNat ↔ k < slotOwed e := by
  have hpast : slotDue e < e.input := of_decide_eq_true h
  have hle := UInt64.lt_iff_toNat_lt.mp hpast
  have hsub := UInt64.toNat_sub_of_le _ _ (UInt64.le_iff_toNat_le.mpr hle.le)
  unfold slotOwed
  rw [Nat.lt_succ_iff, Nat.le_div_iff_mul_le hP]
  omega

/-! ## Runs of slots -/

/-- What the pacer counts, given its slots so far. -/
structure SlotLog (deadline₀ P : UInt64) (max : UInt32) (log : List SlotEvent) (p : SlotLoop) : Prop where
  periodNs : p.periodNs = P
  budget : p.catchupMaxSlots = max
  backend : p.backend = .thread
  deadline : p.deadline.toNat = (deadline₀.toNat + (log.length + slotsAbandoned log) * P.toNat +
    (slotRemainders log).sum) % 18446744073709551616
  slotsDropped : p.slotsDropped = UInt64.ofNat (slotsAbandoned log)
  lateWakes : p.lateWakes = UInt64.ofNat (log.countP slotLate)
  slotsCatchup : p.slotsCatchup = UInt64.ofNat (log.countP slotRepaid)

theorem slotsAbandoned_concat (log : List SlotEvent) (e : SlotEvent) :
    slotsAbandoned (log ++ [e]) = slotsAbandoned log + if slotRebased e then slotOwed e else 0 := by
  unfold slotsAbandoned
  rw [List.filter_append, List.map_append, List.sum_append]
  cases h : slotRebased e <;> simp [h]

theorem slotRemainders_concat (log : List SlotEvent) (e : SlotEvent) :
    (slotRemainders (log ++ [e])).sum =
      (slotRemainders log).sum + if slotRebased e then slotRemainder e else 0 := by
  unfold slotRemainders
  rw [List.filter_append, List.map_append, List.sum_append]
  cases h : slotRebased e <;> simp [h]

variable {deadline₀ P : UInt64} {max : UInt32}

theorem slotLog_init (deadline₀ P : UInt64) (max : UInt32) :
    SlotLog deadline₀ P max [] { periodNs := P, catchupMaxSlots := max, deadline := deadline₀ } := by
  refine ⟨rfl, rfl, rfl, ?_, rfl, rfl, rfl⟩
  have hlt := deadline₀.toNat_lt
  simp only [slotsAbandoned, slotRemainders, List.filter_nil, List.map_nil, List.sum_nil, List.length_nil,
    Nat.add_zero, Nat.zero_mul]
  omega

theorem SlotLog.step (h : SlotLog deadline₀ P max log p) (now : UInt64) :
    SlotLog deadline₀ P max (log ++ [slotMachine.event p now]) (slotEnd p none now) := by
  have hmove := slotEnd_move now h.backend
  have hcount : ∀ (f : SlotEvent → Bool) (n : UInt64), n = UInt64.ofNat (log.countP f) →
      n + (if f (slotMachine.event p now) then 1 else 0) =
        UInt64.ofNat ((log ++ [slotMachine.event p now]).countP f) := by
    intro f n hn
    rw [List.countP_append, List.countP_singleton, UInt64.ofNat_add, hn]
    split_ifs <;> rfl
  refine ⟨hmove.periodNs.trans h.periodNs, hmove.budget.trans h.budget, hmove.backend.trans h.backend, ?_, ?_,
    hmove.lateWakes.trans (hcount slotLate _ h.lateWakes),
    hmove.slotsCatchup.trans (hcount slotRepaid _ h.slotsCatchup)⟩
  · have hdue : (slotDue (slotMachine.event p now)).toNat = (p.deadline.toNat + P.toNat) % 18446744073709551616 := by
      show (p.deadline + p.periodNs).toNat = _
      rw [h.periodNs, UInt64.toNat_add]
    rw [hmove.deadline, slotsAbandoned_concat, slotRemainders_concat, List.length_append, List.length_singleton]
    cases hrebased : slotRebased (slotMachine.event p now) with
    | false =>
      have hsum : (log.length + 1 + (slotsAbandoned log + 0)) * P.toNat =
          (log.length + slotsAbandoned log) * P.toNat + P.toNat := by ring
      rw [if_neg Bool.false_ne_true, if_neg Bool.false_ne_true, if_neg Bool.false_ne_true, hdue, h.deadline,
        hsum]
      omega
    | true =>
      have haccounts := rebase_accounts hrebased
      rw [slotMachine.event_pre, h.periodNs] at haccounts
      rw [if_pos rfl, if_pos rfl, if_pos rfl, h.periodNs, haccounts, hdue, h.deadline]
      have hsum : (log.length + 1 + (slotsAbandoned log + slotOwed (slotMachine.event p now))) * P.toNat =
          (log.length + slotsAbandoned log) * P.toNat + P.toNat +
            slotOwed (slotMachine.event p now) * P.toNat := by ring
      rw [hsum]
      omega
  · rw [hmove.slotsDropped, slotsAbandoned_concat, h.slotsDropped, UInt64.ofNat_add]
    cases hrebased : slotRebased (slotMachine.event p now) with
    | false => rfl
    | true =>
      rw [if_pos rfl, if_pos rfl]
      unfold slotOwed
      rw [UInt64.ofNat_add, ← UInt64.toNat_div, UInt64.ofNat_toNat]
      rfl

theorem slotLog_run (deadline₀ P : UInt64) (max : UInt32) (nows : List UInt64) :
    let p₀ : SlotLoop := { periodNs := P, catchupMaxSlots := max, deadline := deadline₀ }
    SlotLog deadline₀ P max (slotMachine.trace p₀ nows) (slotMachine.run p₀ nows) :=
  slotMachine.trace_invariant (L := fun _ _ => True) (slotLog_init deadline₀ P max)
    (fun _ _ now h _ => h.step now) nows fun _ _ _ => trivial

theorem slotLog_at {nows : List UInt64}
    (he : e ∈ slotMachine.trace { periodNs := P, catchupMaxSlots := max, deadline := deadline₀ } nows) :
    ∃ log, SlotLog deadline₀ P max log e.pre ∧ e = slotMachine.event e.pre e.input := by
  obtain ⟨log, post, hsplit⟩ := List.append_of_mem he
  exact ⟨log, slotMachine.trace_invariant_at (L := fun _ _ => True) (slotLog_init deadline₀ P max)
    (fun _ _ now h _ => h.step now) (fun _ _ _ => trivial) ⟨post, hsplit⟩⟩

/-- After a slot the debt is within the budget. -/
theorem SlotLog.debt (h : SlotLog deadline₀ P max log p) (hP : 0 < P.toNat)
    (hnow : now.toNat + P.toNat < 18446744073709551616) :
    now ≤ (slotEnd p none now).deadline ∨
      (now - (slotEnd p none now).deadline).toNat < max.toNat * P.toNat := by
  have hmove := slotEnd_move now h.backend
  rw [hmove.deadline]
  rcases slotLate_cases (slotMachine.event p now) with ⟨hlate, -, hrebased⟩ | ⟨hlate, hrepaid, hrebased⟩ |
    ⟨-, -, hrebased⟩
  · rw [hrebased, if_neg Bool.false_ne_true]
    exact .inl (UInt64.not_lt.mp (of_decide_eq_false hlate))
  · rw [hrebased, if_neg Bool.false_ne_true]
    right
    have hrepays : SlotLoop.repays { p with deadline := slotDue (slotMachine.event p now) } now = true := by
      unfold slotRepaid at hrepaid
      rw [hlate, Bool.true_and] at hrepaid
      exact hrepaid
    have hbudget := UInt64.le_iff_toNat_le.mp (of_decide_eq_true hrepays).2
    have hpast : slotDue (slotMachine.event p now) < now := of_decide_eq_true hlate
    generalize slotDue (slotMachine.event p now) = due at hpast hbudget ⊢
    unfold SlotLoop.behind at hbudget
    rw [h.budget, h.periodNs, UInt32.toNat_toUInt64, UInt64.toNat_add, UInt64.toNat_div, UInt64.toNat_one]
      at hbudget
    have hsub : (now - due).toNat ≤ now.toNat := by
      rw [UInt64.toNat_sub_of_le _ _ (UInt64.le_of_lt hpast)]
      exact Nat.sub_le _ _
    have hquot : (now - due).toNat / P.toNat + 1 < 18446744073709551616 := by
      have hmul := Nat.div_mul_le_self (now - due).toNat P.toNat
      have hge := Nat.le_mul_of_pos_right ((now - due).toNat / P.toNat) hP
      omega
    rw [Nat.mod_eq_of_lt hquot, Nat.succ_le_iff, Nat.div_lt_iff_lt_mul hP] at hbudget
    exact hbudget
  · rw [hrebased, if_pos rfl, h.periodNs]
    left
    rw [UInt64.le_iff_toNat_le]
    show now.toNat ≤ (now + P).toNat
    rw [UInt64.toNat_add]
    omega

end Slots

/-- The deadline accounts for every slot: those that were emitted, those that were counted as dropped, and
the rest of a slot at each re-base. A late slot is repaid or re-based, and what is owed after it is within
the budget. The last of these is guarded by `now + P < 2^64`: within a period of the end of the clock a
re-base wraps the deadline. -/
theorem slots_conserved {P : UInt64} (hP : 0 < P) (deadline₀ : UInt64) (max : UInt32) (nows : List UInt64) :
    let p₀ : SlotLoop := { periodNs := P, catchupMaxSlots := max, deadline := deadline₀ }
    let log := slotMachine.trace p₀ nows
    let p := slotMachine.run p₀ nows
    p.deadline.toNat = (deadline₀.toNat + (nows.length + slotsAbandoned log) * P.toNat +
      (slotRemainders log).sum) % 18446744073709551616 ∧
    p.slotsDropped = UInt64.ofNat (slotsAbandoned log) ∧
    (slotRemainders log).length = log.countP slotRebased ∧
    (∀ r ∈ slotRemainders log, r < P.toNat) ∧
    p.slotsCatchup + UInt64.ofNat (log.countP slotRebased) = p.lateWakes ∧
    ∀ e ∈ log,
      (slotRebased e = true → ∀ k, (slotDue e).toNat + k * P.toNat ≤ e.input.toNat ↔ k < slotOwed e) ∧
      (e.input.toNat + P.toNat < 18446744073709551616 →
        e.input ≤ e.post.deadline ∨ (e.input - e.post.deadline).toNat < max.toNat * P.toNat) := by
  intro p₀ log p
  have hpos : 0 < P.toNat := UInt64.lt_iff_toNat_lt.mp hP
  have hlog : SlotLog deadline₀ P max log p := slotLog_run deadline₀ P max nows
  refine ⟨?_, hlog.slotsDropped, ?_, ?_, ?_, ?_⟩
  · rw [hlog.deadline]
    show (_ + (log.length + _) * _ + _) % _ = _
    rw [slotMachine.trace_length]
  · unfold slotRemainders
    rw [List.length_map, List.countP_eq_length_filter]
  · intro r hr
    obtain ⟨e, he, rfl⟩ := List.mem_map.mp hr
    obtain ⟨before, hpre, -⟩ := slotLog_at (List.mem_of_mem_filter he)
    unfold slotRemainder
    rw [hpre.periodNs]
    exact Nat.mod_lt _ hpos
  · have hcount : log.countP slotRepaid + log.countP slotRebased = log.countP slotLate := by
      clear hlog
      clear_value log
      induction log with
      | nil => rfl
      | cons e log ih =>
        simp only [List.countP_cons]
        rcases slotLate_cases e with ⟨hl, hc, hr⟩ | ⟨hl, hc, hr⟩ | ⟨hl, hc, hr⟩ <;>
          simp only [hl, hc, hr, if_true, Bool.false_eq_true, if_false] <;> omega
    rw [hlog.slotsCatchup, hlog.lateWakes, ← UInt64.ofNat_add, hcount]
  · intro e he
    obtain ⟨before, hpre, hevent⟩ := slotLog_at he
    refine ⟨fun hrebased k => ?_, fun hnow => ?_⟩
    · have hlate : slotLate e = true := by
        unfold slotRebased at hrebased
        exact (Bool.and_eq_true_iff.mp hrebased).1
      have howed := owed_iff (e := e) (by rw [hpre.periodNs]; exact hpos) hlate k
      rw [hpre.periodNs] at howed
      exact howed
    · have hpost : e.post = slotEnd e.pre none e.input := congrArg Event.post hevent
      rw [hpost]
      exact hpre.debt hpos hnow

theorem slots_conserved_late :
    let p₀ : SlotLoop := { periodNs := 125000, catchupMaxSlots := 4, deadline := 0 }
    let log := slotMachine.trace p₀ [100, 500000, 9000000]
    let p := slotMachine.run p₀ [100, 500000, 9000000]
    p.deadline.toNat = (0 + (3 + slotsAbandoned log) * 125000 +
      (slotRemainders log).sum) % 18446744073709551616 ∧
    p.slotsDropped = UInt64.ofNat (slotsAbandoned log) ∧
    (slotRemainders log).length = log.countP slotRebased ∧
    (∀ r ∈ slotRemainders log, r < 125000) ∧
    p.slotsCatchup + UInt64.ofNat (log.countP slotRebased) = p.lateWakes ∧
    ∀ e ∈ log,
      (slotRebased e = true → ∀ k, (slotDue e).toNat + k * 125000 ≤ e.input.toNat ↔ k < slotOwed e) ∧
      (e.input.toNat + 125000 < 18446744073709551616 →
        e.input ≤ e.post.deadline ∨ (e.input - e.post.deadline).toNat < 4 * 125000) :=
  slots_conserved (by decide) 0 4 [100, 500000, 9000000]

end Libreac.Egress
