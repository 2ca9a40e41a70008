import Mathlib.Tactic.Linarith
import Libreac.PacerLoop
import Libreac.Proofs.PacerProofs

/-!
# Proofs: the pace after a rate change

On the thread backend a slot lasts one period of the rate in force. On the ETF backend the launch
grid is started once, at the opening rate, and a rate change does not reach it: the frames leave at
the rate in force exactly when that is the opening rate.
-/

namespace Libreac

variable {env : Env} {cfg : PacerCfg} {p : Pacer} {l : PacerLoop}

/-! ## The launch grid -/

/-- A grid at `fps` frames a second that has not lost a fraction of a nanosecond. -/
structure GridOk (fps : ℤ) (g : EtfGrid) : Prop where
  fps_eq : g.fps = fps
  whole : g.whole = 1000000000 / fps
  rem : g.rem = 1000000000 % fps
  frac_nonneg : 0 ≤ g.frac
  frac_lt : g.frac < fps

theorem gridOk_init {fps : ℤ} (h : 0 < fps) (baseNs : ℤ) : GridOk fps (etfGridInit fps baseNs) := by
  unfold etfGridInit
  rw [if_neg (by omega)]
  exact ⟨rfl, rfl, rfl, le_refl _, h⟩

/-- One advance adds a period: what the launch time lacks of it is in the fraction. -/
theorem GridOk.advance {fps : ℤ} {g : EtfGrid} (h : 0 < fps) (ok : GridOk fps g) :
    GridOk fps (etfGridAdvance g 0) ∧
    (etfGridAdvance g 0).launchNs * fps + (etfGridAdvance g 0).frac
      = g.launchNs * fps + g.frac + 1000000000 := by
  obtain ⟨hf, hw, hr, h₀, h₁⟩ := ok
  have hdiv := Int.mul_ediv_add_emod 1000000000 fps
  have hnn := Int.emod_nonneg 1000000000 (show fps ≠ 0 by omega)
  have hlt := Int.emod_lt_of_pos 1000000000 h
  rw [← hw, ← hr] at hdiv
  rw [← hr] at hnn hlt
  unfold etfGridAdvance
  rw [if_neg (by omega), hf]
  split_ifs with hcarry
  · refine ⟨⟨rfl, hw, hr, by dsimp only; omega, by dsimp only; omega⟩, ?_⟩
    dsimp only
    linarith
  · refine ⟨⟨rfl, hw, hr, by dsimp only; omega, by dsimp only; omega⟩, ?_⟩
    dsimp only
    linarith

/-! ## Floor and ceiling -/

/-- `d` is the floor or the ceiling of `x / f`. -/
def IsRounded (x f d : ℤ) : Prop := d = x / f ∨ d = (x + f - 1) / f
  deriving Decidable

theorem isRounded_iff {x f d : ℤ} (h : 0 < f) : IsRounded x f d ↔ x - f < d * f ∧ d * f < x + f := by
  constructor
  · rintro (rfl | rfl)
    · have h₁ := Int.ediv_mul_le x (show f ≠ 0 by omega)
      have h₂ := Int.lt_ediv_add_one_mul_self x h
      rw [Int.add_mul] at h₂
      omega
    · have h₁ := Int.ediv_mul_le (x + f - 1) (show f ≠ 0 by omega)
      have h₂ := Int.lt_ediv_add_one_mul_self (x + f - 1) h
      rw [Int.add_mul] at h₂
      omega
  · intro ⟨hlow, hhigh⟩
    by_cases hle : d * f ≤ x
    · left
      have h₁ := (Int.le_ediv_iff_mul_le h).mpr hle
      have h₂ := (Int.ediv_lt_iff_lt_mul h).mpr (show x < (d + 1) * f by rw [Int.add_mul]; omega)
      omega
    · right
      have h₁ := (Int.le_ediv_iff_mul_le h).mpr (show d * f ≤ x + f - 1 by omega)
      have h₂ := (Int.ediv_lt_iff_lt_mul h).mpr
        (show x + f - 1 < (d + 1) * f by rw [Int.add_mul]; omega)
      omega

/-- No launch time suits two rates, one of them a rate of the closed list, for a slot or more. -/
theorem isRounded_unique {n d f f₀ : ℤ} (hn : 1 ≤ n) (hf : f = 3675 ∨ f = 4000 ∨ f = 8000)
    (h₀ : 0 < f₀) (h : IsRounded (n * 1000000000) f d) (h' : IsRounded (n * 1000000000) f₀ d) :
    f = f₀ := by
  obtain ⟨hlow, hhigh⟩ := (isRounded_iff (show 0 < f by omega)).mp h
  obtain ⟨hlow', hhigh'⟩ := (isRounded_iff h₀).mp h'
  generalize hx : n * 1000000000 = x at *
  have hx1 : 1000000000 ≤ x := by omega
  -- Both products bound `d * f * f₀`, so the rates differ by less than the period of either.
  have hfpos : 0 < f := by omega
  have e₁ := Int.mul_lt_mul_of_pos_right hlow h₀
  have e₂ := Int.mul_lt_mul_of_pos_right hhigh h₀
  have e₃ := Int.mul_lt_mul_of_pos_right hlow' hfpos
  have e₄ := Int.mul_lt_mul_of_pos_right hhigh' hfpos
  have hcomm : d * f * f₀ = d * f₀ * f := Int.mul_right_comm d f f₀
  rcases lt_trichotomy f f₀ with hlt | heq | hgt
  · exfalso
    obtain ⟨k, hk, rfl⟩ : ∃ k, 1 ≤ k ∧ f₀ = f + k := ⟨f₀ - f, by omega, by omega⟩
    have hxk : 1000000000 * k ≤ x * k := Int.mul_le_mul_of_nonneg_right hx1 (by omega)
    rcases hf with rfl | rfl | rfl <;> nlinarith
  · exact heq
  · exfalso
    obtain ⟨k, hk, rfl⟩ : ∃ k, 1 ≤ k ∧ f₀ = f - k := ⟨f - f₀, by omega, by omega⟩
    have hxk : x * 1 ≤ x * k := Int.mul_le_mul_of_nonneg_left hk (by omega)
    rcases hf with rfl | rfl | rfl <;> nlinarith

/-! ## What a pacer keeps -/

/-- The rates a pacer opened at `fps₀` can come to run at. -/
def FpsOk (fps₀ fps : ℤ) : Prop := fps = fps₀ ∨ fps = 3675 ∨ fps = 4000 ∨ fps = 8000

/-- The pacer, its master and the announce agree on the rate in force. -/
structure Paced (fps₀ : ℤ) (p : Pacer) : Prop where
  announce : AnnounceOk p.master
  width : p.master.cfg.outChannels ≠ 0
  pace : p.master.cfg.consoleField = paceCode p.fps
  period : p.periodNs = pacerPeriodNs p.fps
  rate : p.rateHz = p.fps * samplesPerPkt
  fps : FpsOk fps₀ p.fps
  request : (∃ fps, p.rateReqHz = fps * samplesPerPkt ∧ FpsOk fps₀ fps) ∨ p.rateReqPending = false

theorem masterSetHeadampSrc_announceOk (tx : HeadampTx) {m : Master} (present : Bool)
    (h : AnnounceOk m) : AnnounceOk (masterSetHeadampSrc tx m present) ∧
      (masterSetHeadampSrc tx m present).cfg = m.cfg := by
  obtain ⟨rows, -, -, heq⟩ := masterSetHeadampSrc_eq tx m present
  rw [heq]
  exact ⟨h.congr rfl, rfl⟩

theorem masterInit_cfg (t : MasterTunables) (placeholder : SceneBody) (src : Mac)
    (cfg : Option ConsoleCfg) (fps : ℤ) :
    (masterInit t placeholder src cfg fps).cfg = cfg.getD consoleCfgIdle := by
  obtain ⟨blk, desc, heq⟩ := masterInit_eq t placeholder src cfg fps
  rw [heq]

theorem paced_open (env : Env) (cfg : PacerCfg) : Paced cfg.fps (pacerOpen env cfg) := by
  obtain ⟨hann, hcfg⟩ := masterSetHeadampSrc_announceOk (headampOpen cfg.fps cfg.headamps) true
    (announceOk_init env.tunables env.placeholder cfg.srcMac (some cfg.consoleCfg) cfg.fps)
  rw [masterInit_cfg, Option.getD_some] at hcfg
  refine ⟨hann, ?_, ?_, rfl, rfl, .inl rfl, .inr rfl⟩
  · intro hzero
    have hzero' : cfg.consoleCfg.outChannels = 0 := (congrArg (·.outChannels) hcfg).symm.trans hzero
    unfold PacerCfg.consoleCfg at hzero'
    split_ifs at hzero' with hout
    · exact hout hzero'
    · exact absurd (show consoleCfgIdle.outChannels = 0 from hzero') (by decide)
  · exact congrArg (·.consoleField) hcfg

/-- The master is driven and the rate left alone. -/
theorem Paced.of_path {fps₀ : ℤ} {p' : Pacer} {t : MasterTunables} {tx : HeadampTx}
    (h : Paced fps₀ p) (path : MasterPath t tx p.master p'.master) (keeps : Keeps p p') :
    Paced fps₀ p' := by
  have hcont := path.continues
  refine ⟨?_, hcont.width h.width, ?_, ?_, ?_, ?_, ?_⟩
  · apply path.invariant
    · intro m i hm
      exact hm.step i
    · intro m complete hm
      exact hm.congr rfl
    · exact h.announce
  · rw [hcont.pace, keeps.fps]
    exact h.pace
  · rw [keeps.periodNs, keeps.fps]
    exact h.period
  · rw [keeps.rateHz, keeps.fps]
    exact h.rate
  · rw [keeps.fps]
    exact h.fps
  · rw [keeps.rateReqHz, Pacer.rateReqPending, keeps.rateReqSeq, keeps.rateReqSeen]
    exact h.request

/-- A rate change carries the new rate to the pacer and to the announce. -/
theorem Paced.applyRate {fps₀ fps : ℤ} (h : Paced fps₀ p) (env : Env) (hfps : FpsOk fps₀ fps) :
    Paced fps₀ (applyRate env { p with rateReqSeen := p.rateReqSeq } (fps * samplesPerPkt)).1 := by
  have htdiv : (fps * samplesPerPkt).tdiv samplesPerPkt = fps := Int.mul_tdiv_cancel fps (by decide)
  unfold Libreac.applyRate
  dsimp only
  rw [htdiv, if_pos h.width]
  obtain ⟨hann, hcfg⟩ := masterSetHeadampSrc_announceOk p.headamp true
    (announceOk_init env.tunables env.placeholder p.src
      (some { p.master.cfg with consoleField := paceCode fps }) fps)
  rw [masterInit_cfg, Option.getD_some] at hcfg
  refine ⟨hann, ?_, ?_, rfl, rfl, hfps, .inr ?_⟩
  · intro hzero
    exact h.width ((congrArg (·.outChannels) hcfg).symm.trans hzero)
  · exact congrArg (·.consoleField) hcfg
  · simp [Pacer.rateReqPending]

theorem Paced.rateDrain {fps₀ : ℤ} (h : Paced fps₀ p) (env : Env) :
    Paced fps₀ (rateDrain env p).1 := by
  unfold Libreac.rateDrain
  split_ifs with hpend
  · rcases h.request with ⟨fps, heq, hfps⟩ | hnone
    · have happly := h.applyRate env hfps
      rwa [← heq] at happly
    · rw [hnone] at hpend
      cases hpend
  · exact h

theorem Rate.hz_fps (r : Rate) (fps₀ : ℤ) :
    ∃ fps, r.hz = fps * samplesPerPkt ∧ FpsOk fps₀ fps := by
  cases r with
  | r44100 => exact ⟨3675, rfl, .inr (.inl rfl)⟩
  | r48000 => exact ⟨4000, rfl, .inr (.inr (.inl rfl))⟩
  | r96000 => exact ⟨8000, rfl, .inr (.inr (.inr rfl))⟩

theorem Paced.step {fps₀ : ℤ} (h : Paced fps₀ p) (env : Env) (i : PacerInput) :
    Paced fps₀ (pacerStep env p i).1 := by
  cases i with
  | frame bytes => exact h.of_path (rxIngest_path env p bytes) (rxIngest_keeps env p bytes)
  | slot =>
    have hdrain := h.rateDrain env
    rw [(pacerStep_slot_eq env p).1]
    exact hdrain.of_path (masterSlot_path env _) (masterSlot_keeps env _)
  | requestRate r =>
    exact ⟨h.announce, h.width, h.pace, h.period, h.rate, h.fps, .inl (r.hz_fps fps₀)⟩
  | requestReestablish =>
    exact ⟨h.announce, h.width, h.pace, h.period, h.rate, h.fps, .inl ⟨p.fps, h.rate, h.fps⟩⟩
  | headampSet ch param value =>
    obtain ⟨hpath, hkeeps⟩ := headampSet_path env.tunables p ch param value
    exact h.of_path hpath hkeeps

/-! ## The slots after a change -/

def PacerInput.isSlot : PacerInput → Bool
  | .slot => true
  | _ => false

/-- The loop on `backend`, opened at `fps₀`. The launch grid is never told of another rate. -/
structure LoopOk (fps₀ : ℤ) (backend : Backend) (l : PacerLoop) : Prop where
  paced : Paced fps₀ l.pacer
  backend_eq : l.backend = backend
  grid : backend ≠ .thread → GridOk fps₀ l.grid

theorem loopOk_start (env : Env) (cfg : PacerCfg) (backend : Backend) (now : ℤ) :
    LoopOk cfg.fps backend (loopStart (pacerOpen env cfg) backend now) := by
  cases backend with
  | thread => exact ⟨paced_open env cfg, rfl, fun h => absurd rfl h⟩
  | etf leadNs => exact ⟨paced_open env cfg, rfl, fun _ => gridOk_init cfg.fps_pos _⟩

theorem LoopOk.step {fps₀ : ℤ} {backend : Backend} (h : LoopOk fps₀ backend l) (h₀ : 0 < fps₀)
    (env : Env) (i : PacerInput) : LoopOk fps₀ backend (loopStep env l i).1 := by
  have hp := h.paced.step env i
  obtain ⟨-, rfl, hgrid⟩ := h
  cases i with
  | slot =>
    simp only [loopStep, loopAdvance]
    generalize (pacerStep env l.pacer .slot).1 = p at hp ⊢
    cases hb : l.backend with
    | thread => exact ⟨hp, rfl, fun h => absurd rfl h⟩
    | etf leadNs => exact ⟨hp, rfl, fun _ => ((hgrid (by simp [hb])).advance h₀).1⟩
  | frame | requestRate | requestReestablish | headampSet => exact ⟨hp, rfl, hgrid⟩

theorem LoopOk.run {fps₀ : ℤ} {backend : Backend} (h : LoopOk fps₀ backend l) (h₀ : 0 < fps₀)
    (env : Env) (is : List PacerInput) :
    LoopOk fps₀ backend ((loopMachine env).run l is) := by
  apply (loopMachine env).run_invariant (L := fun _ _ => True) h
  · intro l i hl _
    exact hl.step h₀ env i
  · intro log e _
    trivial

/-- The clock moves `n` slots on at the rate of its backend: the rate in force on the thread, the
opening rate on the grid. -/
structure Moved (fps₀ n : ℤ) (l l' : PacerLoop) : Prop where
  keeps : Keeps l.pacer l'.pacer
  thread : l.backend = .thread → l'.deadline = l.deadline + n * l.pacer.periodNs
  etf : l.backend ≠ .thread → l'.grid.launchNs * fps₀ + l'.grid.frac
    = l.grid.launchNs * fps₀ + l.grid.frac + n * 1000000000

theorem LoopOk.moved {fps₀ : ℤ} {backend : Backend} (h : LoopOk fps₀ backend l) (h₀ : 0 < fps₀)
    (env : Env) {i : PacerInput} (hi : i.asksRate = false) (hpend : l.pacer.rateReqPending = false) :
    Moved fps₀ (if i.isSlot then 1 else 0) l (loopStep env l i).1 := by
  have hkeeps := pacerStep_keeps env l.pacer hi hpend
  cases i with
  | slot =>
    simp only [loopStep, loopAdvance]
    generalize (pacerStep env l.pacer .slot).1 = p at hkeeps ⊢
    obtain ⟨-, rfl, hgrid⟩ := h
    cases hb : l.backend with
    | thread =>
      refine ⟨hkeeps, fun _ => ?_, fun hne => absurd hb hne⟩
      simp [PacerInput.isSlot, hkeeps.periodNs]
    | etf leadNs =>
      refine ⟨hkeeps, fun hthread => ?_, fun hne => ?_⟩
      · rw [hb] at hthread
        cases hthread
      · simpa [PacerInput.isSlot] using ((hgrid hne).advance h₀).2
  | frame | requestRate | requestReestablish | headampSet =>
    exact ⟨hkeeps, fun _ => by simp [loopStep, PacerInput.isSlot],
      fun _ => by simp [loopStep, PacerInput.isSlot]⟩

theorem LoopOk.moved_run {fps₀ : ℤ} {backend : Backend} (h : LoopOk fps₀ backend l) (h₀ : 0 < fps₀)
    (env : Env) {js : List PacerInput} (hquiet : ∀ i ∈ js, i.asksRate = false)
    (hpend : l.pacer.rateReqPending = false) :
    Moved fps₀ (js.countP (·.isSlot) : ℕ) l ((loopMachine env).run l js) := by
  induction js generalizing l with
  | nil => exact ⟨⟨rfl, rfl, rfl, rfl, rfl, rfl, rfl⟩, by simp, by simp⟩
  | cons i js ih =>
    have hstep := h.moved h₀ env (hquiet i (by simp)) hpend
    have hok := h.step h₀ env i
    have hrest := ih hok (fun j hj => hquiet j (by simp [hj])) (hstep.keeps.pending.trans hpend)
    have hback : (loopStep env l i).1.backend = l.backend := hok.backend_eq.trans h.backend_eq.symm
    have hcount : ((List.countP (·.isSlot) (i :: js) : ℕ) : ℤ)
        = (if i.isSlot then 1 else 0) + (List.countP (·.isSlot) js : ℕ) := by
      rw [List.countP_cons]
      split_ifs
      · push_cast
        exact Int.add_comm ..
      · simp
    rw [Reactive.Machine.run_cons, hcount]
    refine ⟨hstep.keeps.trans hrest.keeps, ?_, ?_⟩
    · intro hthread
      have h₁ := hstep.thread hthread
      have h₂ := hrest.thread (hback.trans hthread)
      rw [h₁, hstep.keeps.periodNs] at h₂
      rw [Int.add_mul, ← Int.add_assoc]
      exact h₂
    · intro hne
      have h₁ := hstep.etf hne
      have h₂ := hrest.etf (fun hb => hne (hback.symm.trans hb))
      rw [h₁] at h₂
      rw [Int.add_mul, ← Int.add_assoc]
      exact h₂

/-- From the loop `l` on, the slots among `js` leave at the rate in force, and that is the rate the
master announces. -/
def RePaced (env : Env) (l : PacerLoop) (js : List PacerInput) : Prop :=
  let l' := (loopMachine env).run l js
  let n : ℤ := (js.countP (·.isSlot) : ℕ)
  (match l.backend with
    | .thread => l'.departs = l.departs + n * pacerPeriodNs l.pacer.fps
    | .etf _ => IsRounded (n * 1000000000) l.pacer.fps (l'.departs - l.departs)) ∧
  l'.pacer.master.announceBlk.byte 19 = paceCode l.pacer.fps

/-- Between two requests the frames leave at the rate in force if and only if the thread paces them
or that rate is the one the pacer was opened at. -/
theorem rate_change_repaces (env : Env) (cfg : PacerCfg) (backend : Backend) (now : ℤ)
    (is js : List PacerInput) (hquiet : ∀ i ∈ js, i.asksRate = false)
    (hslot : 0 < js.countP (·.isSlot)) :
    let l := (loopMachine env).run (loopStart (pacerOpen env cfg) backend now) is
    l.pacer.rateReqPending = false →
      (RePaced env l js ↔ backend = .thread ∨ l.pacer.fps = cfg.fps) := by
  intro l hpend
  have h₀ := cfg.fps_pos
  have hok : LoopOk cfg.fps backend l := (loopOk_start env cfg backend now).run h₀ env is
  have hok' := hok.run h₀ env js
  have hmoved := hok.moved_run h₀ env hquiet hpend
  have hannounce : ((loopMachine env).run l js).pacer.master.announceBlk.byte 19
      = paceCode l.pacer.fps := by
    rw [hok'.paced.announce.paceCarried.1, hok'.paced.pace, hmoved.keeps.fps]
  have hback' : ((loopMachine env).run l js).backend = l.backend :=
    hok'.backend_eq.trans hok.backend_eq.symm
  unfold RePaced PacerLoop.departs
  dsimp only
  rw [hback', and_iff_left hannounce]
  generalize hn : List.countP (·.isSlot) js = n at *
  cases hb : l.backend with
  | thread =>
    have hthread := hmoved.thread hb
    rw [hok.paced.period] at hthread
    exact iff_of_true hthread (.inl (hok.backend_eq.symm.trans hb))
  | etf leadNs =>
    have hne : backend ≠ .thread := by
      rw [← hok.backend_eq, hb]
      nofun
    have hetf := hmoved.etf (by rw [hb]; nofun)
    have hfrac := hok.grid hne
    have hfrac' := hok'.grid hne
    -- The launch time keeps to the opening rate, whatever the rate in force.
    have hopen : IsRounded (n * 1000000000) cfg.fps
        (((loopMachine env).run l js).grid.launchNs - l.grid.launchNs) := by
      rw [isRounded_iff h₀, Int.sub_mul]
      have h₁ := hfrac.frac_nonneg
      have h₂ := hfrac.frac_lt
      have h₃ := hfrac'.frac_nonneg
      have h₄ := hfrac'.frac_lt
      constructor <;> linarith
    constructor
    · intro hround
      right
      rcases hok.paced.fps with heq | hlist
      · exact heq
      · exact isRounded_unique (by omega) hlist h₀ hround hopen
    · rintro (hthread | heq)
      · exact absurd hthread hne
      · rw [heq]
        exact hopen

/-- A desk at 48 kHz, re-paced to 96 kHz by its first slot. -/
def rePacedDesk (backend : Backend) : PacerLoop :=
  (loopMachine deskEnv).run (loopStart (pacerOpen deskEnv deskCfg) backend 0)
    [.requestRate .r96000, .slot]

theorem rate_change_repaces_thread :
    (rePacedDesk .thread).pacer.fps = 8000 ∧ RePaced deskEnv (rePacedDesk .thread) [.slot, .slot] :=
  ⟨by decide +kernel,
    (rate_change_repaces deskEnv deskCfg .thread 0 [.requestRate .r96000, .slot] [.slot, .slot]
      (by simp [PacerInput.asksRate]) (by decide) (by decide +kernel)).mpr (.inl rfl)⟩

/-- On ETF the frames of that desk still leave every 250 µs, under an announce of 96 kHz. -/
theorem rate_change_leaves_etf : ¬ RePaced deskEnv (rePacedDesk (.etf 500000)) [.slot] := by
  have hfps : (rePacedDesk (.etf 500000)).pacer.fps = 8000 := by decide +kernel
  have hlaunch : ((loopMachine deskEnv).run (rePacedDesk (.etf 500000)) [.slot]).departs
      - (rePacedDesk (.etf 500000)).departs = 250000 := by decide +kernel
  have hbackend : (rePacedDesk (.etf 500000)).backend = .etf 500000 := by decide +kernel
  unfold RePaced
  dsimp only
  rw [hbackend, hfps]
  rintro ⟨hround, -⟩
  dsimp only at hround
  rw [hlaunch] at hround
  exact absurd hround (by decide)

end Libreac
