import Libreac.Proofs.AnnounceProofs

/-!
# Proofs: the link budget, and what is forgotten with a box

The budget is filled when a session opens and with every frame the session accepts, and each slot
takes one from it; so what is left of it is the reload less the slots since. Every way back to the
hunt goes through `enterProbing`, which forgets the box (`backward_forgotten`).
-/

namespace Libreac

open Reactive (sinceLast sinceLast_concat)

variable {t : MasterTunables} {tx : HeadampTx} {m : Master}

/-! ## What fills the budget, and what takes from it -/

/-- The call is a frame the peer binding accepts. -/
def frameAccepted (e : MasterEvent) : Bool :=
  match e.input.2 with
  | .rx ev src _ => e.pre.peerAccepts src ev
  | _ => false

/-- The call leaves a session with a full budget: it opened it, or it is a frame the session
accepted. -/
def budgetFilled (e : MasterEvent) : Bool :=
  e.post.state = .established ∧ (e.pre.state ≠ .established ∨ frameAccepted e = true)

/-- The call is a slot. -/
def isSlotEvent (e : MasterEvent) : Bool := e.input.2 = .next

/-- The slots since the budget was last full. -/
def slotsSinceRefill (log : List MasterEvent) : ℕ :=
  (sinceLast budgetFilled log).countP isSlotEvent

theorem slotsSinceRefill_concat (log : List MasterEvent) (e : MasterEvent) :
    slotsSinceRefill (log ++ [e]) =
      if budgetFilled e then 0 else slotsSinceRefill log + if isSlotEvent e then 1 else 0 := by
  unfold slotsSinceRefill
  rw [sinceLast_concat]
  by_cases hr : budgetFilled e = true
  · rw [if_pos hr, if_pos hr, List.countP_nil]
  · rw [if_neg hr, if_neg hr, List.countP_append, List.countP_singleton]

theorem rxAccount_established (tx : HeadampTx) (ev : RxEvent) (hs : m.state = .established) :
    (rxAccount tx m ev).state = .established ∧
      (rxAccount tx m ev).linkCheck = m.geo.linkCheckReload := by
  unfold rxAccount promoteIdle
  rw [if_neg (show ¬ m.state = .idle by rw [hs]; decide)]
  dsimp only
  split_ifs
  · exact ⟨hs, rfl⟩
  · exact ⟨hs, rfl⟩

/-- A frame in a session: refused, or it fills the budget. Only a BYE leads back to the hunt. -/
theorem masterRx_budget (tx : HeadampTx) (hs : m.state = .established) (ev : RxEvent) (src : Mac)
    (blk : Option Block) :
    let m' := (masterRx tx m ev src blk).1
    (m'.state = .established →
      m'.linkCheck = if m.peerAccepts src ev then m.geo.linkCheckReload else m.linkCheck) ∧
    (m'.state = .probing → m'.dropReason = .bye) := by
  obtain ⟨hstate, hlink⟩ := rxAccount_established tx ev hs
  unfold masterRx
  cases hacc : m.peerAccepts src ev with
  | false => exact ⟨fun _ => rfl, fun hp => absurd (hs.symm.trans hp) (by decide)⟩
  | true =>
    have hno : ¬ (rxAccount tx m ev).state = .probing := by rw [hstate]; decide
    simp only [Bool.not_true, Bool.false_eq_true, if_false, if_true]
    rw [if_neg fun h => hno h.2.1]
    dsimp only
    have hedge := applyEdge_established tx (rxAccount tx m ev) ev blk
      (src = (rxAccount tx m ev).boxMac) (rxAccount tx m ev).grantDelivered src
      (joinBlock ((rxAccount tx m ev).classify ev src blk) blk)
    dsimp only at hedge
    rw [hstate, Master.classify]
    rw [Master.classify] at hedge
    rcases hedge with heq | heq | heq
    · rw [heq]
      exact ⟨fun _ => hlink, fun hp => absurd hp hno⟩
    · rw [heq, enterGranting_state]
      constructor <;> intro h <;> cases h
    · rw [heq, enterProbing_state]
      refine ⟨fun h => ?_, fun _ => enterProbing_dropReason _⟩
      cases h

/-- A slot of a session takes one from the budget, or finds it used up. -/
theorem masterNext_budget (tx : HeadampTx) (hs : m.state = .established) :
    let m' := (masterNext t tx m).1
    (m'.state = .established → m'.linkCheck = m.linkCheck - 1 ∧ 1 < m.linkCheck) ∧
    (m'.state = .probing ∧ m'.dropReason = .peerGone ↔ m.linkCheck ≤ 1) := by
  have hmove := masterNext_move t tx m
  generalize masterNext t tx m = r at hmove ⊢
  obtain ⟨m', s⟩ := r
  dsimp only at hmove ⊢
  have hsame : ∀ m₀, Ticked m m₀ → m₀.state = .established ∧ m₀.linkCheck = m.linkCheck := by
    intro m₀ h₀
    obtain ⟨seen, tick, rfl⟩ := h₀.of_ne_idle (by rw [hs]; decide)
    exact ⟨hs, rfl⟩
  cases hmove with
  | hunt h₀ hs₀ | grant h₀ hs₀ | delivered h₀ hs₀ | wait h₀ hs₀ | boxUnknown h₀ hs₀ =>
    have hestablished := (hsame _ h₀).1
    rw [hs₀] at hestablished
    cases hestablished
  | @locked m₀ h₀ hs₀ c s hc lc blk desc hlc hleft =>
    have hbudget := (hsame _ h₀).2
    have hacc := sceneAccount_move tx (m := { m₀ with
      cad := c, linkCheck := lc, sceneBlk := blk, fillerDesc := desc }) s.emit (.inr hs₀)
    generalize sceneAccount tx { m₀ with
      cad := c, linkCheck := lc, sceneBlk := blk, fillerDesc := desc } s.emit = m' at hacc
    have hstay : m₀.state ≠ .probing := by rw [hs₀]; decide
    cases hacc with
    | none | opened | closed | dropped =>
      exact ⟨fun _ => ⟨by dsimp only [Master.completed]; omega, by omega⟩,
        fun h => absurd h.1 hstay, fun h => absurd h (by omega)⟩
    | released =>
      rw [enterGranting_state]
      exact ⟨nofun, fun h => absurd h.1 (by decide), fun h => absurd h (by omega)⟩
    | bye =>
      rw [enterProbing_state, enterProbing_dropReason]
      refine ⟨nofun, fun h => ?_, fun h => absurd h (by omega)⟩
      have hdrop : DropReason.bye = .peerGone := h.2
      cases hdrop
  | @lost m₀ h₀ hs₀ c s hc lc blk desc inflight hlc hleft =>
    have hbudget := (hsame _ h₀).2
    have hprobing := enterProbing_state { m₀ with cad := c, linkCheck := lc, dropReason := .peerGone }
    have hdrop := enterProbing_dropReason { m₀ with cad := c, linkCheck := lc, dropReason := .peerGone }
    dsimp only
    rw [hprobing, hdrop]
    exact ⟨nofun, fun _ => by omega, fun _ => ⟨rfl, rfl⟩⟩

/-- A call that opens a session fills the budget. -/
theorem masterStep_opens (i : HeadampTx × MasterInput) (hs : m.state ≠ .established)
    (hpost : (masterStep t m i).1.state = .established) :
    (masterStep t m i).1.linkCheck = m.geo.linkCheckReload := by
  obtain ⟨tx, i⟩ := i
  cases i with
  | rx ev src blk =>
    have hmove := masterRx_move tx m ev src blk
    simp only [masterStep] at hpost ⊢
    generalize (masterRx tx m ev src blk).1 = m', (masterRx tx m ev src blk).2 = r at hmove hpost ⊢
    cases hmove with
    | refused => exact absurd hpost hs
    | stay _ h₁ =>
      obtain ⟨seen, lc, rfl⟩ := h₁.of_ne_probing (by rw [hpost]; decide)
      exact absurd hpost hs
    | held _ hprobing =>
      have hboth : MasterState.established = .probing := hpost.symm.trans hprobing
      cases hboth
    | latch | relatch =>
      rw [enterGranting_state] at hpost
      cases hpost
    | accept _ h₁ => exact congrArg Geometry.linkCheckReload (Continues.heard h₁).geo
    | bye =>
      rw [enterProbing_state] at hpost
      cases hpost
  | next =>
    have hmove := masterNext_move t tx m
    simp only [masterStep] at hpost ⊢
    generalize (masterNext t tx m).1 = m', (masterNext t tx m).2 = s at hmove hpost ⊢
    cases hmove with
    | @hunt m₀ h₀ hs₀ c s hc blk desc =>
      have hscene := sceneAccount_move tx
        (m := { m₀ with cad := c, sceneBlk := blk, fillerDesc := desc }) s.emit (.inl hs₀)
      rcases hscene.state_cases with hstate | hstate | hstate
      · have hboth : MasterState.established = .probing := hpost.symm.trans (hstate.trans hs₀)
        cases hboth
      · rw [hpost] at hstate
        cases hstate
      · rw [hpost] at hstate
        cases hstate
    | grant _ hs₀ | wait _ hs₀ =>
      have hboth : MasterState.established = .granting := hpost.symm.trans hs₀
      cases hboth
    | delivered h₀ => exact congrArg Geometry.linkCheckReload (Continues.ticked h₀).geo
    | boxUnknown =>
      rw [enterProbing_state] at hpost
      cases hpost
    | locked h₀ hs₀ | lost h₀ hs₀ =>
      obtain ⟨seen, tick, rfl⟩ := h₀.of_ne_probing (by rw [hs₀]; decide)
      exact absurd hs₀ hs
  | regrant =>
    simp only [masterStep, masterRegrant, enterGranting_state] at hpost
    cases hpost
  | setHeadampSrc present =>
    obtain ⟨rows, -, -, heq⟩ := masterSetHeadampSrc_eq tx m present
    simp only [masterStep, heq] at hpost
    exact absurd hpost hs
  | setBox inCh outCh base =>
    rcases masterSetBox_cases tx m inCh outCh base with heq | ⟨a, rows, heq, -⟩
    · simp only [masterStep, heq] at hpost
      exact absurd hpost hs
    · simp only [masterStep, heq] at hpost
      exact absurd hpost hs

/-! ## Every run -/

/-- In a session, what is left of the budget is the reload less the slots since it was full. -/
def BudgetInv (g : Geometry) (log : List MasterEvent) (m : Master) : Prop :=
  m.geo = g ∧ (m.state = .established →
    m.linkCheck = g.linkCheckReload - slotsSinceRefill log ∧ slotsSinceRefill log < g.linkCheckReload)

theorem BudgetInv.step {g : Geometry} (hreload : 1 ≤ g.linkCheckReload) {log : List MasterEvent}
    (h : BudgetInv g log m) (i : HeadampTx × MasterInput) :
    BudgetInv g (log ++ [(masterMachine t).event m i]) (masterStep t m i).1 := by
  obtain ⟨hgeo, hbudget⟩ := h
  refine ⟨(Continues.step t m i).geo.trans hgeo, fun hpost => ?_⟩
  rw [slotsSinceRefill_concat]
  have hfull : (masterStep t m i).1.linkCheck = g.linkCheckReload →
      budgetFilled ((masterMachine t).event m i) = true →
      (masterStep t m i).1.linkCheck = g.linkCheckReload -
          ((if budgetFilled ((masterMachine t).event m i) then 0 else slotsSinceRefill log +
            if isSlotEvent ((masterMachine t).event m i) then 1 else 0 : ℕ) : ℤ) ∧
        ((if budgetFilled ((masterMachine t).event m i) then 0 else slotsSinceRefill log +
            if isSlotEvent ((masterMachine t).event m i) then 1 else 0 : ℕ) : ℤ) < g.linkCheckReload := by
    intro hlink hrefill
    rw [if_pos hrefill]
    push_cast
    omega
  by_cases hs : m.state = .established
  · obtain ⟨hlink, hlt⟩ := hbudget hs
    obtain ⟨tx, i⟩ := i
    cases i with
    | rx ev src blk =>
      have hrx := (masterRx_budget tx hs ev src blk).1 hpost
      cases hacc : m.peerAccepts src ev with
      | true =>
        rw [if_pos hacc, hgeo] at hrx
        exact hfull hrx (decide_eq_true ⟨hpost, .inr hacc⟩)
      | false =>
        have hno : budgetFilled ((masterMachine t).event m (tx, .rx ev src blk)) = false :=
          decide_eq_false fun hrefill => hrefill.2.elim (fun hne => hne hs)
            fun hyes => absurd (hacc.symm.trans hyes) (by decide)
        rw [if_neg (by rw [hacc]; decide)] at hrx
        rw [hno]
        exact ⟨hrx.trans hlink, hlt⟩
    | next =>
      have hnext := (masterNext_budget (t := t) tx hs).1 hpost
      have hno : budgetFilled ((masterMachine t).event m (tx, .next)) = false :=
        decide_eq_false fun hrefill => hrefill.2.elim (fun hne => hne hs) fun h => by cases h
      have hslot : isSlotEvent ((masterMachine t).event m (tx, .next)) = true := rfl
      have hlink' : (masterStep t m (tx, .next)).1.linkCheck = m.linkCheck - 1 := hnext.1
      rw [hno, hslot, hlink']
      simp only [Bool.false_eq_true, if_false, if_true]
      push_cast
      omega
    | regrant =>
      simp only [masterStep, masterRegrant, enterGranting_state] at hpost
      cases hpost
    | setHeadampSrc present =>
      have hno : budgetFilled ((masterMachine t).event m (tx, .setHeadampSrc present)) = false :=
        decide_eq_false fun hrefill => hrefill.2.elim (fun hne => hne hs) fun h => by cases h
      obtain ⟨rows, -, -, heq⟩ := masterSetHeadampSrc_eq tx m present
      simp only [masterStep, heq, hno]
      exact ⟨hlink, hlt⟩
    | setBox inCh outCh base =>
      have hno : budgetFilled ((masterMachine t).event m (tx, .setBox inCh outCh base)) = false :=
        decide_eq_false fun hrefill => hrefill.2.elim (fun hne => hne hs) fun h => by cases h
      rw [hno]
      rcases masterSetBox_cases tx m inCh outCh base with heq | ⟨a, rows, heq, -⟩
      · simp only [masterStep, heq]
        exact ⟨hlink, hlt⟩
      · simp only [masterStep, heq]
        exact ⟨hlink, hlt⟩
  · have hopen := masterStep_opens i hs hpost
    rw [hgeo] at hopen
    exact hfull hopen (decide_eq_true ⟨hpost, .inl hs⟩)

/-- What a step leaves of an initial master: the announced blocks are in order, and what
`reac_master_init` fixed has not changed. -/
structure Initialised (m₀ m : Master) : Prop where
  announce : AnnounceOk m
  continues : Continues m₀ m

theorem Initialised.step {m₀ : Master} (h : Initialised m₀ m) (i : HeadampTx × MasterInput) :
    Initialised m₀ (masterStep t m i).1 :=
  ⟨h.announce.step i, h.continues.trans (Continues.step t m i)⟩

theorem Initialised.forgotten {m₀ : Master} (h : Initialised m₀ m) (hs : m.state = .probing)
    (hf : Forgotten m) :
    m.enrollBlk = enrollBlkOf m₀.cfg enrollDefaultWidth ∧
      m.announceBlk = genCfea m₀.src { m₀.cfg with outChannels := consoleCfgIdle.outChannels } 0 := by
  obtain ⟨⟨hann, -, henroll, -⟩, hcont⟩ := h
  have hbox : m.hasBox = false := by
    unfold Master.hasBox
    rw [hf.alloc]
    rfl
  have hcfg : m.cfg = { m₀.cfg with outChannels := consoleCfgIdle.outChannels } := by
    have hwidth := hf.width
    have hpace := hcont.pace
    cases hm : m.cfg
    rw [hm] at hwidth hpace
    simp only at hwidth hpace
    rw [hwidth, hpace]
    rfl
  constructor
  · rw [henroll, Master.enrollWidth, if_neg (by rw [hbox]; decide), hcfg]
    rfl
  · rw [hann, if_neg (by rw [hs]; decide), hcfg, hcont.src]

/-- A step leaves the session for want of frames. -/
def PeerGone (e : MasterEvent) : Prop :=
  e.pre.state = .established ∧ e.post.state = .probing ∧ e.post.dropReason = .peerGone

theorem BudgetInv.peerGone_iff {g : Geometry} {log : List MasterEvent} (h : BudgetInv g log m)
    (hs : m.state = .established) (i : HeadampTx × MasterInput) :
    PeerGone ((masterMachine t).event m i) ↔
      i.2 = .next ∧ slotsSinceRefill log + 1 = g.linkCheckReload := by
  obtain ⟨hlink, hlt⟩ := h.2 hs
  obtain ⟨tx, i⟩ := i
  cases i with
  | rx ev src blk =>
    refine ⟨fun hgone => ?_, nofun⟩
    have hbye : (masterRx tx m ev src blk).1.dropReason = .bye :=
      (masterRx_budget tx hs ev src blk).2 hgone.2.1
    have hboth : DropReason.bye = .peerGone := hbye.symm.trans hgone.2.2
    cases hboth
  | next =>
    have hnext := (masterNext_budget (t := t) tx hs).2
    constructor
    · rintro ⟨-, hgone⟩
      have hleft := hnext.mp hgone
      exact ⟨rfl, by omega⟩
    · rintro ⟨-, hcount⟩
      exact ⟨hs, hnext.mpr (by omega)⟩
  | regrant =>
    refine ⟨fun hgone => ?_, nofun⟩
    have hboth : MasterState.granting = .probing :=
      (enterGranting_state tx m m.boxMac none).symm.trans hgone.2.1
    cases hboth
  | setHeadampSrc present =>
    refine ⟨fun hgone => ?_, nofun⟩
    obtain ⟨rows, -, -, heq⟩ := masterSetHeadampSrc_eq tx m present
    have hpost : (masterSetHeadampSrc tx m present).state = .probing := hgone.2.1
    rw [heq] at hpost
    exact absurd (hs.symm.trans hpost) (by decide)
  | setBox inCh outCh base =>
    refine ⟨fun hgone => ?_, nofun⟩
    have hpost : (masterSetBox tx m inCh outCh base).state = .probing := hgone.2.1
    rcases masterSetBox_cases tx m inCh outCh base with heq | ⟨a, rows, heq, -⟩
    · rw [heq] at hpost
      exact absurd (hs.symm.trans hpost) (by decide)
    · rw [heq] at hpost
      exact absurd (hs.symm.trans hpost) (by decide)

/-- What a step back to the hunt leaves of a master initialised as `m₀` with the configuration `cfg`. -/
structure BackToHunt (t : MasterTunables) (placeholder : SceneBody) (src : Mac)
    (cfg : Option ConsoleCfg) (fps : ℤ) (m : Master) : Prop where
  alloc : m.alloc = .none
  burst : m.grantBurst = []
  mac : m.boxMac = noMac
  held : m.joinHeld = false
  scenes : m.sceneComplete = 0
  enroll : m.enrollBlk = (masterInit t placeholder src cfg fps).enrollBlk
  announce : m.announceBlk = (masterInit t placeholder src cfg fps).announceBlk

/-- A session ends for want of frames exactly with the slot that uses up the budget, and every way
back to the hunt forgets the box: what is announced is what a fresh master would announce at the idle
width, and the group map is that of a fresh master. -/
theorem link_budget_and_forgetting (t : MasterTunables) (placeholder : SceneBody) (src : Mac)
    (cfg : Option ConsoleCfg) (fps : ℤ) (is : List (HeadampTx × MasterInput)) (log : List MasterEvent)
    (e : MasterEvent)
    (hstep : (masterMachine t).StepOf (masterInit t placeholder src cfg fps) is log e) :
    (e.pre.state = .established → slotsSinceRefill log < e.pre.geo.linkCheckReload ∧
      (PeerGone e ↔ e.input.2 = .next ∧ slotsSinceRefill log + 1 = e.pre.geo.linkCheckReload)) ∧
    (e.pre.state = .granting ∨ e.pre.state = .established → e.post.state = .probing →
      BackToHunt t placeholder src
        (some { cfg.getD consoleCfgIdle with outChannels := consoleCfgIdle.outChannels }) fps e.post ∧
      e.post.enrollBlk = (masterInit t placeholder src cfg fps).enrollBlk) := by
  obtain ⟨blk, desc, heq⟩ := masterInit_eq t placeholder src cfg fps
  obtain ⟨blk', desc', heq'⟩ := masterInit_eq t placeholder src
    (some { cfg.getD consoleCfgIdle with outChannels := consoleCfgIdle.outChannels }) fps
  have hstart : BudgetInv (geometry t (initFps fps)) [] (masterInit t placeholder src cfg fps) ∧
      Initialised (masterInit t placeholder src cfg fps)
        (masterInit t placeholder src cfg fps) := by
    refine ⟨?_, announceOk_init .., .refl _⟩
    rw [heq]
    exact ⟨rfl, nofun⟩
  obtain ⟨⟨hbudget, hinit⟩, hevent⟩ := (masterMachine t).trace_invariant_at
    (H := fun log m => BudgetInv (geometry t (initFps fps)) log m ∧
      Initialised (masterInit t placeholder src cfg fps) m)
    (L := fun _ _ => True) hstart
    (fun log m i h _ => ⟨h.1.step (le_max_left ..) i, h.2.step i⟩) (fun _ _ _ => trivial) hstep
  constructor
  · intro hs
    rw [hbudget.1]
    refine ⟨(hbudget.2 hs).2, ?_⟩
    rw [hevent]
    exact hbudget.peerGone_iff hs e.input
  · intro hpre hpost
    rw [hevent] at hpost ⊢
    have hf := backward_forgotten e.input hpre hpost
    obtain ⟨henroll, hann⟩ := (hinit.step (t := t) e.input).forgotten hpost hf
    rw [heq] at henroll hann
    refine ⟨⟨hf.alloc, hf.burst, hf.mac, hf.held, hf.scenes, ?_, ?_⟩, ?_⟩
    · rw [heq']
      exact henroll
    · rw [heq']
      exact hann
    · rw [heq]
      exact henroll

/-- A window opened by hand, and a BYE. -/
theorem link_budget_bye :
    let m := (masterMachine {}).run (masterInit {} (Vector.replicate 8904 0) (Vector.replicate 6 1)
      (some ⟨16, 0⟩) 4000) [(headampTxInit, .regrant)]
    BackToHunt {} (Vector.replicate 8904 0) (Vector.replicate 6 1) (some ⟨8, 0⟩) 4000
      (masterStep {} m (headampTxInit, .rx .bye (Vector.replicate 6 2) none)).1 :=
  ((link_budget_and_forgetting {} (Vector.replicate 8904 0) (Vector.replicate 6 1) (some ⟨16, 0⟩) 4000
    [(headampTxInit, .regrant), (headampTxInit, .rx .bye (Vector.replicate 6 2) none)] _ _
    ((masterMachine {}).stepOf_last _ [(headampTxInit, .regrant)] _)).2 (.inl rfl) rfl).1

/-- A console that was configured with sixteen channels comes back from its first box announcing
eight. -/
theorem configured_width_not_restored :
    let m₀ := masterInit {} (Vector.replicate 8904 0) (Vector.replicate 6 1) (some ⟨16, 0⟩) 4000
    let m := (masterMachine {}).run m₀ [(headampTxInit, .regrant)]
    let m' := (masterStep {} m (headampTxInit, .rx .bye (Vector.replicate 6 2) none)).1
    m.state = .granting ∧ m'.state = .probing ∧ m'.announceBlk ≠ m₀.announceBlk := by
  refine ⟨rfl, rfl, ?_⟩
  decide +kernel

end Libreac
