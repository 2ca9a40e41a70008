import Mathlib.Tactic.SplitIfs
import Libreac.Master
import Libreac.Proofs.GrantProofs

/-!
# Proofs: what one step of the master can do

The inversion lemmas `masterRx_move` and `masterNext_move` list every outcome of the two entry
points. Each invariant of the master is proved by cases on them; no later proof unfolds the entry
points again.
-/

namespace Libreac

variable {t : MasterTunables} {tx : HeadampTx} {m : Master}

/-! ## The sweep in force -/

/-- The sweep belongs to the allocation in force; without a box there is none. -/
def Master.SweepOk (m : Master) : Prop :=
  (m.hasBox = true → IsSweep m.alloc m.grantBurst) ∧ (m.hasBox = false → m.grantBurst = [])

theorem hasBox_iff : m.hasBox = true ↔ 0 < m.alloc.width := by simp [Master.hasBox]

theorem hasBox_eq_false_iff : m.hasBox = false ↔ m.alloc.width = 0 := by simp [Master.hasBox]

/-- A refresh keeps the allocation and regenerates its sweep. -/
theorem refreshGrantSweep_eq (tx : HeadampTx) (m : Master) :
    ∃ rows, refreshGrantSweep tx m = { m with grantBurst := rows } ∧
      (m.hasBox = true → IsSweep m.alloc rows) ∧ (m.hasBox = false → rows = m.grantBurst) := by
  unfold refreshGrantSweep rebuildGrantSweep
  by_cases h : 0 < m.alloc.width
  · have hsweep := grantBuildSweep_eq h (if m.headampSrc then some tx else none)
    refine ⟨_, ?_, fun _ => ⟨_, hsweep⟩, ?_⟩
    · simp only [grantAllocate_self h, hsweep, Option.getD_some]
    · simp [Master.hasBox, h]
  · obtain h0 : m.alloc.width = 0 := by omega
    refine ⟨m.grantBurst, ?_, ?_, fun _ => rfl⟩
    · simp [h0, grantAllocate_zero]
    · simp [Master.hasBox, h0]

/-- After a refresh the sweep is the one of the allocation. -/
theorem Master.SweepOk.refresh {rows : List Template} (h : m.SweepOk)
    (h₁ : m.hasBox = true → IsSweep m.alloc rows) (h₀ : m.hasBox = false → rows = m.grantBurst) :
    ({ m with grantBurst := rows } : Master).SweepOk :=
  ⟨h₁, fun hb => (h₀ hb).trans (h.2 hb)⟩

/-- The configuration announced for the box in force. -/
def Master.boxCfg (m : Master) : ConsoleCfg :=
  if m.hasBox then { m.cfg with outChannels := m.alloc.width.toUInt8 } else m.cfg

/-- What opening a grant window does, in full. -/
theorem enterGranting_eq (tx : HeadampTx) (m : Master) (src : Mac) (blk : Option Block) :
    ∃ rows, (m.hasBox = true → IsSweep m.alloc rows) ∧ (m.hasBox = false → rows = m.grantBurst) ∧
      enterGranting tx m src blk = { m with
        state := .granting
        win := { m.win with grantTicks := 0, enrollSentTick := 0, dwellEndedTick := 0 }
        grantAttempts := m.grantAttempts + 1, boxMac := src, joinBlk := blk.getD m.joinBlk
        grantBurst := rows, cfg := m.boxCfg, announceBlk := genCfea m.src m.boxCfg 0 } := by
  obtain ⟨rows, heq, h₁, h₀⟩ := refreshGrantSweep_eq tx { m with
    state := .granting
    win := { m.win with grantTicks := 0, enrollSentTick := 0, dwellEndedTick := 0 }
    grantAttempts := m.grantAttempts + 1, boxMac := src, joinBlk := blk.getD m.joinBlk }
  refine ⟨rows, h₁, h₀, ?_⟩
  unfold enterGranting
  rw [heq]
  rfl

theorem enterGranting_state (tx : HeadampTx) (m : Master) (src : Mac) (blk : Option Block) :
    (enterGranting tx m src blk).state = .granting := by
  obtain ⟨rows, -, -, heq⟩ := enterGranting_eq tx m src blk
  rw [heq]

/-- What an admitted declaration does, in full. -/
def Master.declared (m : Master) (a : GrantAlloc) (rows : List Template) : Master :=
  let cfg := { m.cfg with outChannels := a.width.toUInt8 }
  let restart := m.hasBox = false ∧ m.state = .granting
  { m with
    alloc := a, grantBurst := rows, enrollBlk := setEnrollWidth m.enrollBlk a.width, cfg
    announceBlk := genCfea m.src cfg (if m.state = .established then 1 else 0)
    win := if restart then {} else { m.win with enrollPending := true }
    cad := if restart then { m.cad with announceTick := 0 } else m.cad }

theorem masterSetBox_declared (tx : HeadampTx) (m : Master) (outCh : ℤ) {inCh base : ℤ}
    {a : GrantAlloc} (ha : grantAllocate base inCh = some a) :
    ∃ rows, masterSetBox tx m inCh outCh base = m.declared a rows ∧ IsSweep a rows := by
  obtain ⟨-, rfl, hpos⟩ := grantAllocate_eq_some ha
  have hsweep := grantBuildSweep_eq hpos (if m.headampSrc then some tx else none)
  refine ⟨_, ?_, _, hsweep⟩
  have hw : UInt8.ofInt (a.width : ℤ) = a.width.toUInt8 := by
    have hmod : ((a.width : ℤ) % 256).toNat = a.width % 256 := by omega
    simpa [UInt8.ofInt, hmod] using UInt8.ofNat_mod_size (x := a.width)
  simp only [masterSetBox, rebuildGrantSweep, ha, hsweep, Master.declared, hw]
  split_ifs <;> rfl

/-- A declaration is refused whole or applied whole. -/
theorem masterSetBox_cases (tx : HeadampTx) (m : Master) (inCh outCh base : ℤ) :
    masterSetBox tx m inCh outCh base = m ∨
    ∃ a rows, masterSetBox tx m inCh outCh base = m.declared a rows ∧
      (a.base : ℤ) = base ∧ (a.width : ℤ) = inCh ∧ IsSweep a rows := by
  cases ha : grantAllocate base inCh with
  | none =>
    left
    simp only [masterSetBox, rebuildGrantSweep, ha]
  | some a =>
    right
    obtain ⟨rows, hset, hsweep⟩ := masterSetBox_declared tx m outCh ha
    obtain ⟨hb, hw, -⟩ := grantAllocate_eq_some ha
    exact ⟨a, rows, hset, hb, hw, hsweep⟩

/-- Without a box there is nothing to refresh. -/
theorem masterSetHeadampSrc_eq (tx : HeadampTx) (m : Master) (present : Bool) :
    ∃ rows, (m.hasBox = true → IsSweep m.alloc rows) ∧ (m.hasBox = false → rows = m.grantBurst) ∧
      masterSetHeadampSrc tx m present = { m with headampSrc := present, grantBurst := rows } := by
  obtain ⟨rows, heq, h₁, h₀⟩ := refreshGrantSweep_eq tx { m with headampSrc := present }
  exact ⟨rows, h₁, h₀, heq⟩

/-! ## Initialisation -/

theorem scenePrepare_eq (m : Master) :
    ∃ blk desc, scenePrepare m = { m with sceneBlk := blk, fillerDesc := desc } := by
  unfold scenePrepare
  split
  · exact ⟨m.sceneBlk, m.fillerDesc, rfl⟩
  · exact ⟨_, _, rfl⟩

/-- The frame rate `reac_master_init` runs at. -/
def initFps (fps : ℤ) : ℤ := if 0 < fps then fps else 8000

theorem masterInit_eq (t : MasterTunables) (placeholder : SceneBody) (src : Mac)
    (cfg : Option ConsoleCfg) (fps : ℤ) :
    ∃ blk desc, masterInit t placeholder src cfg fps =
      { state := .idle, src, geo := geometry t (initFps fps), cfg := cfg.getD consoleCfgIdle
        chanmap := genChanmap (cfg.getD consoleCfgIdle)
        scene := sceneBody placeholder src (cfg.getD consoleCfgIdle)
        sceneBlk := blk, fillerDesc := desc
        announceBlk := genCfea src (cfg.getD consoleCfgIdle) 0
        enrollBlk := enrollBlkOf (cfg.getD consoleCfgIdle) enrollDefaultWidth } := by
  unfold masterInit
  dsimp only
  obtain ⟨blk, desc, h⟩ := scenePrepare_eq
    { state := .idle, src, geo := geometry t (initFps fps), cfg := cfg.getD consoleCfgIdle
      chanmap := genChanmap (cfg.getD consoleCfgIdle)
      scene := sceneBody placeholder src (cfg.getD consoleCfgIdle)
      sceneBlk := Vector.replicate 34 0, fillerDesc := 0
      announceBlk := genCfea src (cfg.getD consoleCfgIdle) 0
      enrollBlk := enrollBlkOf (cfg.getD consoleCfgIdle) enrollDefaultWidth }
  exact ⟨blk, desc, h⟩

theorem initFps_pos (fps : ℤ) : 0 < initFps fps := by
  unfold initFps
  split_ifs <;> omega

/-- The dwell leaves room for the longest sweep: the whole window is a number of slots that an `int`
holds. -/
abbrev Geometry.DwellOk (g : Geometry) : Prop := 1 ≤ g.grantDwell ∧ g.grantDwell ≤ 2147482110

/-- The dwell an override asks for leaves room for the longest sweep in an `int`; the seconds must not
have wrapped to nothing or less. The built-in dwell always does. -/
def DwellFits (t : MasterTunables) (fps : ℤ) : Prop :=
  (0 < t.grantDwellMs ∧ t.grantDwellMs < 600000 →
    wrapInt (fps * t.grantDwellMs / 1000) ≤ 2147482110) ∧
  (¬ (0 < t.grantDwellMs ∧ t.grantDwellMs < 600000) → 0 < t.grantDwellS ∧ t.grantDwellS ≤ 3600 →
    1 ≤ wrapInt (fps * t.grantDwellS) ∧ wrapInt (fps * t.grantDwellS) ≤ 2147482110)

instance (t : MasterTunables) (fps : ℤ) : Decidable (DwellFits t fps) :=
  inferInstanceAs (Decidable (_ ∧ _))

theorem DwellFits.geometry {fps : ℤ} (h : DwellFits t fps) : (geometry t fps).DwellOk := by
  obtain ⟨hms, hs⟩ := h
  simp only [Geometry.DwellOk, Libreac.geometry, grantDwellSlots]
  split_ifs with h₁ h₂
  · have := hms h₁
    omega
  · exact hs h₁ h₂
  · have hle := Int.tdiv_le_tdiv (c := 10) (by omega) (Int.le_of_lt (wrapInt_bounds (fps * 16)).2)
    rw [show (2147483648 : ℤ).tdiv 10 = 214748364 from rfl] at hle
    omega

/-- At a rate whose hour fits an `int`, no override is too long. -/
theorem dwellFits_of_rate (t : MasterTunables) {fps : ℤ} (hpos : 0 < fps) (hrate : fps ≤ 596522) :
    DwellFits t fps := by
  refine ⟨fun hms => ?_, fun _ hs => ?_⟩
  · have hle : fps * t.grantDwellMs ≤ 596522 * 600000 :=
      Int.mul_le_mul hrate (by omega) (by omega) (by omega)
    have hnonneg := Int.mul_nonneg hpos.le hms.1.le
    rw [wrapInt_of_lt (by omega) (by omega)]
    omega
  · have hle : fps * t.grantDwellS ≤ 596522 * 3600 :=
      Int.mul_le_mul hrate hs.2 (by omega) (by omega)
    have hmul := Int.mul_pos hpos hs.1
    rw [wrapInt_of_lt (by omega) (by omega)]
    omega

/-- A sweep is at most as long as the one of the widest allocation. -/
theorem Master.SweepOk.length_le (h : m.SweepOk) : m.grantBurst.length ≤ 128 := by
  cases hb : m.hasBox with
  | true =>
    have hlen := (h.1 hb).length.1
    have hfits := m.alloc.fits.1
    unfold grantSweepLen at hlen
    unfold grantMaxWidth at hfits
    omega
  | false =>
    rw [h.2 hb]
    exact Nat.zero_le _

/-! ## The first slot or frame -/

/-- The master once it has left IDLE. -/
def Master.started (m : Master) : Master := if m.state = .idle then enterProbing m else m

theorem promoteIdle_eq (tx : HeadampTx) (m : Master) : promoteIdle tx m = m.started := by
  unfold promoteIdle Master.started
  split_ifs with h
  · rw [h]; rfl
  · rfl

theorem started_of_ne (h : m.state ≠ .idle) : m.started = m := if_neg h

theorem started_of_idle (h : m.state = .idle) : m.started = enterProbing m := if_pos h

/-- The state every way into PROBING leaves the push in. -/
structure FreshHunt (m : Master) : Prop where
  state : m.state = .probing
  inflight : m.sceneInflight = false
  complete : m.sceneComplete = 0
  held : m.joinHeld = false
  pos : m.cad.cyclePos = m.geo.sub01Off

theorem enterProbing_freshHunt (m : Master) : FreshHunt (enterProbing m) := by
  unfold enterProbing masterForgetBox
  dsimp only
  split_ifs <;> exact ⟨rfl, rfl, rfl, rfl, rfl⟩

theorem enterProbing_state (m : Master) : (enterProbing m).state = .probing :=
  (enterProbing_freshHunt m).state

theorem enterProbing_dropReason (m : Master) : (enterProbing m).dropReason = m.dropReason := by
  unfold enterProbing masterForgetBox
  dsimp only
  split_ifs <;> rfl

theorem started_state_ne (m : Master) : m.started.state ≠ .idle := by
  unfold Master.started
  split_ifs with h
  · rw [enterProbing_state]; decide
  · exact h

theorem started_cases (m : Master) :
    (m.state = .idle ∧ m.started.state = .probing) ∨ (m.state ≠ .idle ∧ m.started = m) := by
  by_cases h : m.state = .idle
  · exact .inl ⟨h, by rw [started_of_idle h, enterProbing_state]⟩
  · exact .inr ⟨h, started_of_ne h⟩

/-! ## Frames -/

/-- The master a frame is judged on: promoted out of IDLE, and the frame noted. -/
def Heard (m m₁ : Master) : Prop :=
  ∃ seen lc, m₁ = { m.started with
    boxSeen := true, presenceTick := 600, commitSeen := seen, linkCheck := lc }

theorem rxAccount_heard (tx : HeadampTx) (m : Master) (ev : RxEvent) :
    Heard m (rxAccount tx m ev) := by
  have hstart : Master.started { m with boxSeen := true, presenceTick := 600 }
      = { m.started with boxSeen := true, presenceTick := 600 } := by
    unfold Master.started enterProbing masterForgetBox
    dsimp only
    split_ifs <;> rfl
  unfold rxAccount
  rw [promoteIdle_eq, hstart]
  dsimp only
  split_ifs
  · exact ⟨_, _, rfl⟩
  · exact ⟨_, _, rfl⟩
  · exact ⟨_, _, rfl⟩
  · exact ⟨m.started.commitSeen, m.started.linkCheck, rfl⟩

theorem Heard.cases {m₁ : Master} (h : Heard m m₁) :
    (m.state = .idle ∧ m₁.state = .probing) ∨ (m.state ≠ .idle ∧ ∃ seen lc, m₁ = { m with
      boxSeen := true, presenceTick := 600, commitSeen := seen, linkCheck := lc }) := by
  obtain ⟨seen, lc, rfl⟩ := h
  rcases started_cases m with h | ⟨hne, heq⟩
  · exact .inl h
  · exact .inr ⟨hne, seen, lc, by rw [heq]⟩

/-- Outside IDLE a frame starts nothing. -/
theorem Heard.of_ne_idle {m₁ : Master} (h : Heard m m₁) (hs : m.state ≠ .idle) :
    ∃ seen lc, m₁ = { m with
      boxSeen := true, presenceTick := 600, commitSeen := seen, linkCheck := lc } := by
  rcases h.cases with ⟨hidle, -⟩ | ⟨-, hsame⟩
  · exact absurd hidle hs
  · exact hsame

theorem Heard.of_ne_probing {m₁ : Master} (h : Heard m m₁) (hs : m₁.state ≠ .probing) :
    ∃ seen lc, m₁ = { m with
      boxSeen := true, presenceTick := 600, commitSeen := seen, linkCheck := lc } := by
  rcases h.cases with ⟨-, hprobing⟩ | ⟨-, hsame⟩
  · exact absurd hprobing hs
  · exact hsame

theorem Heard.state {m₁ : Master} (h : Heard m m₁) (hs : m.state ≠ .idle) : m₁.state = m.state := by
  obtain ⟨seen, lc, rfl⟩ := h.of_ne_idle hs
  rfl

theorem Heard.probing_iff {m₁ : Master} (h : Heard m m₁) :
    m₁.state = .probing ↔ m.state = .idle ∨ m.state = .probing := by
  rcases h.cases with ⟨hidle, hprobing⟩ | ⟨hne, seen, lc, rfl⟩
  · exact iff_of_true hprobing (.inl hidle)
  · exact ⟨.inr, fun hpre => hpre.resolve_left hne⟩

/-- The events that ask for a grant: a JOIN with its block, or a CONFIG. -/
def Forward (ev : RxEvent) (blk : Option Block) : Prop :=
  (ev = .join ∧ blk.isSome = true) ∨ ev = .config

/-- The block a JOIN brings. -/
def heldBlock (ev : RxEvent) (blk : Option Block) : Option Block := if ev = .join then blk else none

/-- The outcomes of one frame. -/
inductive RxMove (tx : HeadampTx) (m : Master) (ev : RxEvent) (src : Mac) (blk : Option Block) :
    Master → Bool → Prop where
  /-- The peer binding refuses the frame. -/
  | refused (h : m.peerAccepts src ev = false) : RxMove tx m ev src blk m false
  /-- No edge. -/
  | stay (h : m.peerAccepts src ev = true) {m₁ : Master} (h₁ : Heard m m₁)
      (hf : m₁.state = .probing → ¬ Forward ev blk)
      (hj : m₁.state = .granting → ev = .join → blk.isSome = true → src = m₁.boxMac) :
      RxMove tx m ev src blk m₁ false
  /-- A forward edge is parked until the scene push has ended. -/
  | held {m₁ : Master} (h₁ : Heard m m₁) (hs : m₁.state = .probing) (hf : Forward ev blk)
      (hr : m₁.sceneTransferReady = false) :
      RxMove tx m ev src blk (holdJoin m₁ ev src (heldBlock ev blk)) false
  /-- A forward edge out of PROBING. -/
  | latch {m₁ : Master} (h₁ : Heard m m₁) (hs : m₁.state = .probing) (hf : Forward ev blk)
      (hr : m₁.sceneTransferReady = true) :
      RxMove tx m ev src blk (enterGranting tx m₁ src (heldBlock ev blk)) true
  /-- Another box's JOIN, while GRANTING, or while ESTABLISHED with no box bound. -/
  | relatch {m₁ : Master} (h₁ : Heard m m₁) (hs : m₁.state = .granting ∨ m₁.state = .established)
      (hev : ev = .join) (hne : src ≠ m₁.boxMac) (hacc : m.peerAccepts src ev = true)
      (drop : DropReason) :
      RxMove tx m ev src blk (enterGranting tx { m₁ with dropReason := drop } src blk) true
  /-- The box accepts a delivered grant. -/
  | accept {m₁ : Master} (h : m.peerAccepts src ev = true) (h₁ : Heard m m₁)
      (hs : m₁.state = .granting) (hd : m₁.grantDelivered = true) (hev : ev ≠ .join) :
      RxMove tx m ev src blk (enterEstablished m₁) true
  /-- The box says BYE. -/
  | bye {m₁ : Master} (h : m.peerAccepts src ev = true) (h₁ : Heard m m₁)
      (hs : m₁.state = .granting ∨ m₁.state = .established) (hev : ev = .bye) :
      RxMove tx m ev src blk (enterProbing { m₁ with dropReason := .bye }) true

theorem joinBlock_eq (ev : RxEvent) (blk : Option Block) (same delivered : Bool) :
    joinBlock (fsmClassify ev blk.isSome same delivered) blk = heldBlock ev blk := by
  cases ev <;> cases blk <;> cases same <;> cases delivered <;> rfl

/-- Every frame is one of the moves. -/
theorem masterRx_move (tx : HeadampTx) (m : Master) (ev : RxEvent) (src : Mac) (blk : Option Block) :
    RxMove tx m ev src blk (masterRx tx m ev src blk).1 (masterRx tx m ev src blk).2 := by
  unfold masterRx
  cases hacc : m.peerAccepts src ev with
  | false => exact .refused hacc
  | true =>
    have h₁ := rxAccount_heard tx m ev
    have hidle : (rxAccount tx m ev).state ≠ .idle := by
      obtain ⟨seen, lc, h⟩ := h₁
      rw [h]
      exact started_state_ne m
    generalize rxAccount tx m ev = m₁ at h₁ hidle
    simp only [Bool.not_true, Bool.false_eq_true, if_false, Master.classify, joinBlock_eq]
    cases hs : m₁.state with
    | idle => exact absurd hs hidle
    | probing =>
      by_cases hf : Forward ev blk
      · have hedge : fsmStep .probing
            (fsmClassify ev blk.isSome (src = m₁.boxMac) m₁.grantDelivered)
            = .go .granting .none true := by
          rcases hf with ⟨rfl, hb⟩ | rfl
          · simp only [fsmClassify, hb]
            by_cases hsame : src = m₁.boxMac <;> simp [hsame, fsmStep]
          · cases m₁.grantDelivered <;> rfl
        rw [hedge]
        cases hr : m₁.sceneTransferReady with
        | false => simpa [MasterEdge.go, hr] using .held h₁ hs hf hr
        | true => simpa [MasterEdge.go, hr, applyEdge] using .latch h₁ hs hf hr
      · have hedge : fsmStep .probing
            (fsmClassify ev blk.isSome (src = m₁.boxMac) m₁.grantDelivered) = .hold .probing := by
          cases ev with
          | join =>
            have hb : blk.isSome = false := by simpa [Forward] using hf
            simp [fsmClassify, hb, fsmStep]
          | config => exact absurd (.inr rfl) hf
          | bcastFiller | bye => rfl
          | unicast | heartbeat => cases m₁.grantDelivered <;> rfl
        rw [hedge]
        simpa [MasterEdge.hold, applyEdge] using
          .stay hacc h₁ (fun _ => hf) (by simp [hs])
    | granting =>
      have hnp : m₁.state = .probing → ¬ Forward ev blk := by simp [hs]
      simp only [reduceCtorEq, false_and, and_false, if_false]
      cases ev with
      | join =>
        cases blk with
        | none =>
          simpa [fsmClassify, fsmStep, MasterEdge.hold, applyEdge] using
            .stay hacc h₁ hnp (by simp)
        | some b =>
          by_cases hsame : src = m₁.boxMac
          · simpa [hsame, fsmClassify, fsmStep, MasterEdge.hold, applyEdge] using
              .stay (hsame ▸ hacc) h₁ hnp (by simp)
          · simpa [hsame, fsmClassify, fsmStep, MasterEdge.go, applyEdge, heldBlock] using
              .relatch h₁ (.inl hs) rfl hsame hacc m₁.dropReason
      | bcastFiller =>
        simpa [fsmClassify, fsmStep, MasterEdge.hold, applyEdge] using .stay hacc h₁ hnp nofun
      | bye =>
        simpa [fsmClassify, fsmStep, MasterEdge.go, applyEdge] using .bye hacc h₁ (.inl hs) rfl
      | config | unicast | heartbeat =>
        cases hd : m₁.grantDelivered with
        | false =>
          simpa [fsmClassify, fsmStep, MasterEdge.hold, applyEdge] using .stay hacc h₁ hnp nofun
        | true =>
          simpa [fsmClassify, fsmStep, MasterEdge.go, applyEdge] using
            .accept hacc h₁ hs hd nofun
    | established =>
      have hnp : m₁.state = .probing → ¬ Forward ev blk := by simp [hs]
      have hng : m₁.state = .granting → ev = .join → blk.isSome = true → src = m₁.boxMac := by
        simp [hs]
      simp only [reduceCtorEq, false_and, and_false, if_false]
      cases ev with
      | join =>
        cases blk with
        | none =>
          simpa [fsmClassify, fsmStep, MasterEdge.hold, applyEdge] using .stay hacc h₁ hnp hng
        | some b =>
          by_cases hsame : src = m₁.boxMac
          · simpa [hsame, fsmClassify, fsmStep, MasterEdge.hold, applyEdge] using
              .stay (hsame ▸ hacc) h₁ hnp (by simp)
          · simpa [hsame, fsmClassify, fsmStep, MasterEdge.go, applyEdge, heldBlock] using
              .relatch h₁ (.inr hs) rfl hsame hacc .macChange
      | bcastFiller =>
        simpa [fsmClassify, fsmStep, MasterEdge.hold, applyEdge] using .stay hacc h₁ hnp hng
      | bye =>
        simpa [fsmClassify, fsmStep, MasterEdge.go, applyEdge] using .bye hacc h₁ (.inr hs) rfl
      | config | unicast | heartbeat =>
        cases m₁.grantDelivered <;>
          simpa [fsmClassify, fsmStep, MasterEdge.hold, applyEdge] using .stay hacc h₁ hnp hng

/-! ## The transfer accounting -/

/-- The master whose transfer has just been completed. -/
def Master.completed (m : Master) : Master :=
  { m with sceneInflight := false, sceneComplete := m.sceneComplete + 1 }

/-- The outcomes of the accounting at the end of a slot. -/
inductive SceneMove (tx : HeadampTx) (m : Master) (emit : MasterEmit) : Master → Prop where
  /-- Nothing to account for. -/
  | none (h₁ : emit ≠ .sceneHead) (h₂ : emit = .sceneTail → m.sceneInflight = false) :
      SceneMove tx m emit m
  /-- The header opens a transfer. -/
  | opened (h : emit = .sceneHead) : SceneMove tx m emit { m with sceneInflight := true }
  /-- The final chunk closes it, and no edge is parked. -/
  | closed (h : emit = .sceneTail) (hi : m.sceneInflight = true) (hj : m.joinHeld = false) :
      SceneMove tx m emit m.completed
  /-- The parked edge leads nowhere. -/
  | dropped (h : emit = .sceneTail) (hi : m.sceneInflight = true) (hj : m.joinHeld = true)
      (hf : m.state = .probing → ¬ Forward m.joinEv m.joinHoldBlk) :
      SceneMove tx m emit { m.completed with joinHeld := false }
  /-- The parked edge opens a grant window. -/
  | released (h : emit = .sceneTail) (hi : m.sceneInflight = true) (hj : m.joinHeld = true)
      (hf : m.state = .probing → Forward m.joinEv m.joinHoldBlk)
      (hs : m.state = .probing ∨ m.state = .established) (drop : DropReason) :
      SceneMove tx m emit
        (enterGranting tx { m.completed with joinHeld := false, dropReason := drop } m.joinSrc
          (heldBlock m.joinEv m.joinHoldBlk))
  /-- A parked BYE, which only a master that was established under it can hold. -/
  | bye (h : emit = .sceneTail) (hj : m.joinHeld = true) (hs : m.state = .established) :
      SceneMove tx m emit
        (enterProbing { m.completed with joinHeld := false, dropReason := .bye })

theorem applyEdge_probing (tx : HeadampTx) (m : Master) (ev : RxEvent) (blk : Option Block)
    (same delivered : Bool) (src : Mac) (jblk : Option Block) :
    let edge := fsmStep .probing (fsmClassify ev blk.isSome same delivered)
    (Forward ev blk ∧ applyEdge tx m edge src jblk = enterGranting tx m src jblk) ∨
    (¬ Forward ev blk ∧ applyEdge tx m edge src jblk = m) := by
  cases ev with
  | join => cases blk <;> cases same <;> simp [Forward, fsmClassify, fsmStep, applyEdge,
      MasterEdge.go, MasterEdge.hold]
  | config | bcastFiller | bye | unicast | heartbeat =>
    cases delivered <;> simp [Forward, fsmClassify, fsmStep, applyEdge, MasterEdge.go,
      MasterEdge.hold]

theorem applyEdge_established (tx : HeadampTx) (m : Master) (ev : RxEvent)
    (blk : Option Block) (same delivered : Bool) (src : Mac) (jblk : Option Block) :
    let edge := fsmStep .established (fsmClassify ev blk.isSome same delivered)
    applyEdge tx m edge src jblk = m ∨
    applyEdge tx m edge src jblk = enterGranting tx { m with dropReason := .macChange } src jblk ∨
    applyEdge tx m edge src jblk = enterProbing { m with dropReason := .bye } := by
  cases ev with
  | join => cases blk <;> cases same <;> simp [fsmClassify, fsmStep, applyEdge, MasterEdge.go,
      MasterEdge.hold]
  | config | bcastFiller | bye | unicast | heartbeat =>
    cases delivered <;> simp [fsmClassify, fsmStep, applyEdge, MasterEdge.go, MasterEdge.hold]

theorem releaseHeldJoin_eq (tx : HeadampTx) (m : Master) :
    releaseHeldJoin tx m = applyEdge tx { m with joinHeld := false }
      (fsmStep m.state (fsmClassify m.joinEv m.joinHoldBlk.isSome (m.joinSrc = m.boxMac)
        (Master.grantDelivered { m with joinHeld := false }))) m.joinSrc
      (heldBlock m.joinEv m.joinHoldBlk) := by
  unfold releaseHeldJoin
  simp only [Master.classify, joinBlock_eq]

/-- A parked edge that asks for a grant opens the window of the box that sent it. -/
theorem releaseHeldJoin_forward (tx : HeadampTx) (hs : m.state = .probing)
    (hf : Forward m.joinEv m.joinHoldBlk) :
    releaseHeldJoin tx m = enterGranting tx { m with joinHeld := false } m.joinSrc
      (heldBlock m.joinEv m.joinHoldBlk) := by
  rw [releaseHeldJoin_eq, hs]
  rcases applyEdge_probing tx { m with joinHeld := false } m.joinEv m.joinHoldBlk
      (m.joinSrc = m.boxMac) (Master.grantDelivered { m with joinHeld := false })
      m.joinSrc (heldBlock m.joinEv m.joinHoldBlk) with ⟨-, he⟩ | ⟨hn, -⟩
  · simpa [hs] using he
  · exact absurd hf hn

theorem releaseHeldJoin_move (tx : HeadampTx) {emit : MasterEmit} (h : emit = .sceneTail)
    (hi : m.sceneInflight = true) (hj : m.joinHeld = true)
    (hs : m.state = .probing ∨ m.state = .established) :
    SceneMove tx m emit (releaseHeldJoin tx m.completed) := by
  have hrel : releaseHeldJoin tx m.completed = applyEdge tx { m.completed with joinHeld := false }
      (fsmStep m.state (fsmClassify m.joinEv m.joinHoldBlk.isSome (m.joinSrc = m.boxMac)
        (Master.grantDelivered { m.completed with joinHeld := false }))) m.joinSrc
      (heldBlock m.joinEv m.joinHoldBlk) := releaseHeldJoin_eq tx m.completed
  rw [hrel]
  rcases hs with hs | hs
  · rw [hs]
    rcases applyEdge_probing tx { m.completed with joinHeld := false } m.joinEv m.joinHoldBlk
        (m.joinSrc = m.boxMac) (Master.grantDelivered { m.completed with joinHeld := false })
        m.joinSrc (heldBlock m.joinEv m.joinHoldBlk) with ⟨hf, he⟩ | ⟨hf, he⟩
    · rw [he]
      exact .released h hi hj (fun _ => hf) (.inl hs) m.dropReason
    · rw [he]
      exact .dropped h hi hj fun _ => hf
  · have hp : m.state ≠ .probing := by rw [hs]; decide
    rw [hs]
    rcases applyEdge_established tx { m.completed with joinHeld := false } m.joinEv m.joinHoldBlk
        (m.joinSrc = m.boxMac) (Master.grantDelivered { m.completed with joinHeld := false })
        m.joinSrc (heldBlock m.joinEv m.joinHoldBlk) with he | he | he
    · rw [he]
      exact .dropped h hi hj fun hs' => absurd hs' hp
    · rw [he]
      exact .released h hi hj (fun hs' => absurd hs' hp) (.inr hs) .macChange
    · rw [he]
      exact .bye h hj hs

/-- Every slot outside GRANTING ends with one of the accounting moves. -/
theorem sceneAccount_move (tx : HeadampTx) (emit : MasterEmit)
    (hs : m.state = .probing ∨ m.state = .established) :
    SceneMove tx m emit (sceneAccount tx m emit) := by
  unfold sceneAccount
  by_cases h₁ : emit = .sceneHead
  · rw [if_pos h₁]
    exact .opened h₁
  rw [if_neg h₁]
  by_cases h₂ : emit = .sceneTail ∧ m.sceneInflight = true
  · rw [if_pos h₂]
    dsimp only
    cases hj : m.joinHeld with
    | true =>
      rw [if_pos rfl]
      have := releaseHeldJoin_move tx h₂.1 h₂.2 hj hs
      simp only [Master.completed, hj] at this ⊢
      exact this
    | false =>
      rw [if_neg (by simp)]
      have : SceneMove tx m emit _ := .closed h₂.1 h₂.2 hj
      simp only [Master.completed, hj] at this ⊢
      exact this
  · rw [if_neg h₂]
    exact .none h₁ fun h => by simpa [h] using h₂

/-- The accounting of a transfer stays put, opens a grant window or goes back to the hunt. -/
theorem SceneMove.state_cases {m' : Master} {emit : MasterEmit} (h : SceneMove tx m emit m') :
    m'.state = m.state ∨ m'.state = .granting ∨ m'.state = .probing := by
  cases h with
  | none | opened | closed | dropped => exact .inl rfl
  | released => exact .inr (.inl (enterGranting_state ..))
  | bye => exact .inr (.inr (enterProbing_state _))

/-- With no transfer in flight, a slot of the hunt can at most open one. -/
theorem sceneAccount_of_not_inflight (tx : HeadampTx) (emit : MasterEmit)
    (hs : m.state = .probing) (hi : m.sceneInflight = false) :
    ∃ inflight, sceneAccount tx m emit = { m with sceneInflight := inflight } := by
  have hmove := sceneAccount_move tx emit (.inl hs)
  generalize sceneAccount tx m emit = m' at hmove
  cases hmove with
  | none => exact ⟨m.sceneInflight, rfl⟩
  | opened => exact ⟨true, rfl⟩
  | closed _ hi' | dropped _ hi' | released _ hi' => simp [hi] at hi'
  | bye _ _ hest => simp [hs] at hest

/-! ## Slots -/

/-- The master a slot is decided on: promoted out of IDLE, counter and presence advanced. -/
def Ticked (m m₀ : Master) : Prop :=
  ∃ seen tick, m₀ = { m.started with
    counter := m.counter + 1, boxSeen := seen, presenceTick := tick }

theorem presenceDecay_ticked (tx : HeadampTx) (m : Master) :
    Ticked m (presenceDecay (promoteIdle tx { m with counter := m.counter + 1 })) := by
  have hstart : Master.started { m with counter := m.counter + 1 }
      = { m.started with counter := m.counter + 1 } := by
    unfold Master.started enterProbing masterForgetBox
    dsimp only
    split_ifs <;> rfl
  rw [promoteIdle_eq, hstart]
  unfold presenceDecay
  split_ifs
  · exact ⟨_, _, rfl⟩
  · exact ⟨m.started.boxSeen, m.started.presenceTick, rfl⟩

theorem Ticked.cases {m₀ : Master} (h : Ticked m m₀) :
    (m.state = .idle ∧ m₀.state = .probing) ∨ (m.state ≠ .idle ∧ ∃ seen tick, m₀ = { m with
      counter := m.counter + 1, boxSeen := seen, presenceTick := tick }) := by
  obtain ⟨seen, tick, rfl⟩ := h
  rcases started_cases m with h | ⟨hne, heq⟩
  · exact .inl h
  · exact .inr ⟨hne, seen, tick, by rw [heq]⟩

/-- Outside IDLE a slot starts nothing. -/
theorem Ticked.of_ne_idle {m₀ : Master} (h : Ticked m m₀) (hs : m.state ≠ .idle) :
    ∃ seen tick, m₀ = { m with
      counter := m.counter + 1, boxSeen := seen, presenceTick := tick } := by
  rcases h.cases with ⟨hidle, -⟩ | ⟨-, hsame⟩
  · exact absurd hidle hs
  · exact hsame

theorem Ticked.of_ne_probing {m₀ : Master} (h : Ticked m m₀) (hs : m₀.state ≠ .probing) :
    ∃ seen tick, m₀ = { m with
      counter := m.counter + 1, boxSeen := seen, presenceTick := tick } := by
  rcases h.cases with ⟨-, hprobing⟩ | ⟨-, hsame⟩
  · exact absurd hprobing hs
  · exact hsame

theorem Ticked.state {m₀ : Master} (h : Ticked m m₀) (hs : m.state ≠ .idle) : m₀.state = m.state := by
  obtain ⟨seen, tick, rfl⟩ := h.of_ne_idle hs
  rfl

theorem Ticked.probing_iff {m₀ : Master} (h : Ticked m m₀) :
    m₀.state = .probing ↔ m.state = .idle ∨ m.state = .probing := by
  rcases h.cases with ⟨hidle, hprobing⟩ | ⟨hne, seen, tick, rfl⟩
  · exact iff_of_true hprobing (.inl hidle)
  · exact ⟨.inr, fun hpre => hpre.resolve_left hne⟩

/-- A window one slot on. -/
def Window.tick (w : Window) : Window := { w with grantTicks := w.grantTicks + 1 }

/-- The outcomes of one slot. -/
inductive NextMove (t : MasterTunables) (tx : HeadampTx) (m : Master) : Master → Slot → Prop where
  /-- PROBING: the hunt cadence, then the transfer accounting. -/
  | hunt {m₀ : Master} (h₀ : Ticked m m₀) (hs : m₀.state = .probing) {c : Cadence} {s : Slot}
      (hc : controlCadence t m₀ = (c, s)) (blk : Template) (desc : UInt8) :
      NextMove t tx m
        (sceneAccount tx { m₀ with cad := c, sceneBlk := blk, fillerDesc := desc } s.emit) s
  /-- GRANTING with a box, the window still running. -/
  | grant {m₀ : Master} (h₀ : Ticked m m₀) (hs : m₀.state = .granting) (hb : m₀.hasBox = true)
      {c : Cadence} {w : Window} {s : Slot} (hw : declaredSlot t m₀ = (c, w, s))
      (hd : Master.grantDelivered { m₀ with cad := c, win := w.tick } = false) :
      NextMove t tx m { m₀ with cad := c, win := w.tick } s
  /-- GRANTING with a box, the whole sweep delivered. -/
  | delivered {m₀ : Master} (h₀ : Ticked m m₀) (hs : m₀.state = .granting) (hb : m₀.hasBox = true)
      {c : Cadence} {w : Window} {s : Slot} (hw : declaredSlot t m₀ = (c, w, s))
      (hd : Master.grantDelivered { m₀ with cad := c, win := w.tick } = true) :
      NextMove t tx m (enterEstablished { m₀ with cad := c, win := w.tick }) s
  /-- GRANTING, waiting for the box to declare itself. -/
  | wait {m₀ : Master} (h₀ : Ticked m m₀) (hs : m₀.state = .granting) (hb : m₀.hasBox = false)
      {c : Cadence} {s : Slot} (hw : undeclaredSlot m₀ = (c, s))
      (hd : m₀.win.grantTicks + 1 ≤ m₀.geo.grantDwell) :
      NextMove t tx m { m₀ with cad := c, win := m₀.win.tick } s
  /-- GRANTING, and the box never declared itself. -/
  | boxUnknown {m₀ : Master} (h₀ : Ticked m m₀) (hs : m₀.state = .granting)
      (hb : m₀.hasBox = false) {c : Cadence} {s : Slot} (hw : undeclaredSlot m₀ = (c, s)) :
      NextMove t tx m
        (enterProbing { m₀ with cad := c, win := m₀.win.tick, dropReason := .boxUnknown }) s
  /-- ESTABLISHED: the locked cadence. -/
  | locked {m₀ : Master} (h₀ : Ticked m m₀) (hs : m₀.state = .established) {c : Cadence} {s : Slot}
      (hc : controlCadence t m₀ = (c, s)) (lc : ℤ) (blk : Template) (desc : UInt8)
      (hlc : lc = m₀.linkCheck - 1) (hleft : 0 < lc) :
      NextMove t tx m (sceneAccount tx
        { m₀ with cad := c, linkCheck := lc, sceneBlk := blk, fillerDesc := desc } s.emit) s
  /-- ESTABLISHED, and the link budget ran out. The slot may still have sent a header. -/
  | lost {m₀ : Master} (h₀ : Ticked m m₀) (hs : m₀.state = .established) {c : Cadence} {s : Slot}
      (hc : controlCadence t m₀ = (c, s)) (lc : ℤ) (blk : Template) (desc : UInt8)
      (inflight : Bool) (hlc : lc = m₀.linkCheck - 1) (hleft : lc ≤ 0) :
      NextMove t tx m
        { enterProbing { m₀ with cad := c, linkCheck := lc, dropReason := .peerGone } with
          sceneBlk := blk, fillerDesc := desc, sceneInflight := inflight } s

theorem sceneAccount_of_not_scene (tx : HeadampTx) (m : Master) {emit : MasterEmit}
    (h : emit.isScene = false) : sceneAccount tx m emit = m := by
  cases emit <;> simp_all [MasterEmit.isScene, sceneAccount]

/-- The scene slots carry steps of the push, the final chunk at its own position. -/
theorem sceneSlot_emit {g : Geometry} {pos : ℤ} {step : ℕ} {emit : MasterEmit}
    (h : sceneSlot g pos = some (step, emit)) :
    emit.isScene = true ∧ (emit = .sceneTail → pos = g.sub02Off) := by
  unfold sceneSlot at h
  split at h
  · cases h
    exact ⟨rfl, nofun⟩
  · split_ifs at h with htail
    · cases h
      exact ⟨rfl, fun _ => htail⟩
    · cases h
      exact ⟨rfl, nofun⟩

theorem identityPoll_emit (g : Geometry) (complete : Bool) (c : Cadence) :
    (identityPoll g complete c).2.emit = .filler ∨
      (identityPoll g complete c).2.emit = .identityPoll := by
  unfold identityPoll
  split_ifs
  · exact .inr rfl
  · exact .inl rfl
  · exact .inl rfl
  · exact .inl rfl

/-- The cadence sends no grant and no ENROLL, and the final chunk at its own position. -/
theorem controlCadence_emit (t : MasterTunables) (m : Master) :
    (controlCadence t m).2.emit ≠ .grant ∧ (controlCadence t m).2.emit ≠ .enroll ∧
      ((controlCadence t m).2.emit = .sceneTail → m.cad.cyclePos = m.geo.sub02Off) := by
  have hpoll : ∀ {emit : MasterEmit} {P : Prop}, emit = .filler ∨ emit = .identityPoll →
      emit ≠ .grant ∧ emit ≠ .enroll ∧ (emit = .sceneTail → P) := by
    rintro emit P (rfl | rfl)
    · exact ⟨nofun, nofun, nofun⟩
    · exact ⟨nofun, nofun, nofun⟩
  unfold controlCadence
  dsimp only
  split_ifs
  · unfold lockedCadence
    dsimp only
    split_ifs
    · exact ⟨nofun, nofun, nofun⟩
    · exact ⟨nofun, nofun, nofun⟩
    · split
      · rename_i hscene
        obtain ⟨hkind, htail⟩ := sceneSlot_emit hscene
        refine ⟨?_, ?_, htail⟩
        · rintro rfl
          cases hkind
        · rintro rfl
          cases hkind
      · exact hpoll (identityPoll_emit ..)
    · exact hpoll (identityPoll_emit ..)
  · unfold huntCadence
    split
    · exact ⟨nofun, nofun, nofun⟩
    · split_ifs with htail
      · exact ⟨nofun, nofun, fun _ => htail⟩
      · exact ⟨nofun, nofun, nofun⟩
      · exact ⟨nofun, nofun, nofun⟩
      · exact ⟨nofun, nofun, nofun⟩
      · exact ⟨nofun, nofun, nofun⟩

theorem dwellSlot_not_scene (g : Geometry) (c : Cadence) :
    (dwellSlot g c).2.emit.isScene = false := by
  unfold dwellSlot
  split
  · rfl
  · split_ifs <;> rfl

theorem burstWindowSlot_not_scene (m : Master) : (burstWindowSlot m).2.emit.isScene = false := by
  unfold burstWindowSlot
  repeat' split
  all_goals rfl

theorem undeclaredSlot_not_scene (m : Master) : (undeclaredSlot m).2.emit.isScene = false := by
  unfold undeclaredSlot
  split_ifs
  · rfl
  · exact dwellSlot_not_scene _ _

theorem enrollSlot_not_scene (t : MasterTunables) : (enrollSlot t).emit.isScene = false := by
  unfold enrollSlot
  cases t.noEnroll <;> rfl

theorem declaredSlot_not_scene (t : MasterTunables) (m : Master) :
    (declaredSlot t m).2.2.emit.isScene = false := by
  unfold declaredSlot
  split_ifs
  · exact enrollSlot_not_scene t
  · split
    · exact burstWindowSlot_not_scene _
    · split_ifs
      · exact enrollSlot_not_scene t
      · exact dwellSlot_not_scene _ _
  · exact burstWindowSlot_not_scene _

/-- The end of `reac_master_next` after the switch on the state. -/
def slotEnd (tx : HeadampTx) (r : Master × Slot) : Master × Slot :=
  (sceneAccount tx (if r.2.emit.isScene then scenePrepare r.1 else r.1) r.2.emit, r.2)

theorem slotEnd_of_not_scene (tx : HeadampTx) {r : Master × Slot} (h : r.2.emit.isScene = false) :
    slotEnd tx r = r := by
  simp [slotEnd, h, sceneAccount_of_not_scene _ _ h]

theorem slotEnd_eq (tx : HeadampTx) (r : Master × Slot) : ∃ blk desc, slotEnd tx r
    = (sceneAccount tx { r.1 with sceneBlk := blk, fillerDesc := desc } r.2.emit, r.2) := by
  obtain ⟨blk, desc, hp⟩ : ∃ blk desc, (if r.2.emit.isScene then scenePrepare r.1 else r.1)
      = { r.1 with sceneBlk := blk, fillerDesc := desc } := by
    split_ifs
    · exact scenePrepare_eq r.1
    · exact ⟨r.1.sceneBlk, r.1.fillerDesc, rfl⟩
  exact ⟨blk, desc, by rw [slotEnd, hp]⟩

theorem slotGranting_move (tx : HeadampTx) {m₀ : Master} (h₀ : Ticked m m₀)
    (hs : m₀.state = .granting) :
    NextMove t tx m (slotEnd tx (slotGranting t tx m₀)).1 (slotEnd tx (slotGranting t tx m₀)).2 := by
  unfold slotGranting
  cases hb : m₀.hasBox with
  | true =>
    have hscene := declaredSlot_not_scene t m₀
    generalize hw : declaredSlot t m₀ = cws at hscene
    obtain ⟨c, w, s⟩ := cws
    simp only [if_true]
    cases hd : Master.grantDelivered { m₀ with cad := c, win := w.tick } with
    | false =>
      have hd' := hd
      simp only [Window.tick] at hd'
      simp only [hd', Bool.false_eq_true, if_false]
      rw [slotEnd_of_not_scene tx (by exact hscene)]
      exact .grant h₀ hs hb hw hd
    | true =>
      have hd' := hd
      simp only [Window.tick] at hd'
      simp only [hd', if_true]
      rw [slotEnd_of_not_scene tx (by exact hscene)]
      have hmove : NextMove t tx m _ s := .delivered h₀ hs hb hw hd
      simpa [hs, applyEdge, fsmStep, MasterEdge.go, Window.tick] using hmove
  | false =>
    have hscene := undeclaredSlot_not_scene m₀
    generalize hw : undeclaredSlot m₀ = cs at hscene
    obtain ⟨c, s⟩ := cs
    simp only [Bool.false_eq_true, if_false]
    split_ifs with hd
    · rw [slotEnd_of_not_scene tx (by exact hscene)]
      have hmove : NextMove t tx m _ s := .boxUnknown h₀ hs hb hw
      simpa [hs, applyEdge, fsmStep, MasterEdge.go, Window.tick] using hmove
    · rw [slotEnd_of_not_scene tx (by exact hscene)]
      exact .wait h₀ hs hb hw (by omega)

theorem slotEstablished_move (tx : HeadampTx) {m₀ : Master} (h₀ : Ticked m m₀)
    (hs : m₀.state = .established) :
    NextMove t tx m (slotEnd tx (slotEstablished t tx m₀)).1
      (slotEnd tx (slotEstablished t tx m₀)).2 := by
  unfold slotEstablished
  generalize hc : controlCadence t m₀ = cs
  obtain ⟨c, s⟩ := cs
  dsimp only
  split_ifs with hlc
  · obtain ⟨blk, desc, he⟩ := slotEnd_eq tx
      (enterProbing { m₀ with cad := c, linkCheck := m₀.linkCheck - 1, dropReason := .peerGone }, s)
    have hfresh := enterProbing_freshHunt
      { m₀ with cad := c, linkCheck := m₀.linkCheck - 1, dropReason := .peerGone }
    obtain ⟨inflight, hacc⟩ := sceneAccount_of_not_inflight tx s.emit (m := { enterProbing
      { m₀ with cad := c, linkCheck := m₀.linkCheck - 1, dropReason := .peerGone } with
      sceneBlk := blk, fillerDesc := desc }) hfresh.state hfresh.inflight
    have hmove : NextMove t tx m _ s := .lost h₀ hs hc (m₀.linkCheck - 1) blk desc inflight rfl hlc
    rw [← hacc] at hmove
    simp only [hs, applyEdge, fsmStep, MasterEdge.go] at he hmove ⊢
    simpa [he] using hmove
  · obtain ⟨blk, desc, he⟩ := slotEnd_eq tx ({ m₀ with cad := c, linkCheck := m₀.linkCheck - 1 }, s)
    rw [he]
    exact .locked h₀ hs hc (m₀.linkCheck - 1) blk desc rfl (by omega)

/-- Every slot is one of the moves. -/
theorem masterNext_move (t : MasterTunables) (tx : HeadampTx) (m : Master) :
    NextMove t tx m (masterNext t tx m).1 (masterNext t tx m).2 := by
  have h₀ := presenceDecay_ticked tx m
  have heq : masterNext t tx m = slotEnd tx
      (slotByState t tx (presenceDecay (promoteIdle tx { m with counter := m.counter + 1 }))) := rfl
  rw [heq]
  generalize presenceDecay (promoteIdle tx { m with counter := m.counter + 1 }) = m₀ at h₀
  have hidle : m₀.state ≠ .idle := by
    obtain ⟨seen, tick, h⟩ := h₀
    rw [h]
    exact started_state_ne m
  unfold slotByState
  split
  · rename_i hs
    exact absurd hs hidle
  · rename_i hs
    obtain ⟨blk, desc, he⟩ := slotEnd_eq tx (slotProbing t m₀)
    rw [he]
    exact .hunt h₀ hs rfl blk desc
  · rename_i hs
    exact slotGranting_move tx h₀ hs
  · rename_i hs
    exact slotEstablished_move tx h₀ hs

/-! ## What every step preserves -/

/-- `m'` has what `reac_master_init` fixed for `m`; its sweep is in order and its announced width is
not zero, if that is so for `m`. -/
structure Continues (m m' : Master) : Prop where
  geo : m'.geo = m.geo
  src : m'.src = m.src
  scene : m'.scene = m.scene
  chanmap : m'.chanmap = m.chanmap
  pace : m'.cfg.consoleField = m.cfg.consoleField
  sweep : m.SweepOk → m'.SweepOk
  width : m.cfg.outChannels ≠ 0 → m'.cfg.outChannels ≠ 0

namespace Continues

theorem refl (m : Master) : Continues m m := ⟨rfl, rfl, rfl, rfl, rfl, id, id⟩

theorem trans {m₁ m₂ m₃ : Master} (h : Continues m₁ m₂) (h' : Continues m₂ m₃) :
    Continues m₁ m₃ :=
  ⟨h'.geo.trans h.geo, h'.src.trans h.src, h'.scene.trans h.scene, h'.chanmap.trans h.chanmap,
    h'.pace.trans h.pace, h'.sweep ∘ h.sweep, h'.width ∘ h.width⟩

theorem after {m₁ m₂ m₃ : Master} (h' : Continues m₂ m₃) (h : Continues m₁ m₂) :
    Continues m₁ m₃ := h.trans h'

theorem enterProbing (m : Master) : Continues m (enterProbing m) := by
  unfold Libreac.enterProbing masterForgetBox
  dsimp only
  split_ifs
  · refine ⟨rfl, rfl, rfl, rfl, rfl, fun _ => ⟨fun hb => ?_, fun _ => rfl⟩, fun _ => ?_⟩
    · simp [Master.hasBox, GrantAlloc.none] at hb
    · exact (by decide : consoleCfgIdle.outChannels ≠ 0)
  · exact ⟨rfl, rfl, rfl, rfl, rfl, id, id⟩

theorem enterGranting (tx : HeadampTx) (m : Master) (src : Mac) (blk : Option Block) :
    Continues m (enterGranting tx m src blk) := by
  obtain ⟨rows, h₁, h₀, heq⟩ := enterGranting_eq tx m src blk
  rw [heq]
  refine ⟨rfl, rfl, rfl, rfl, ?_, fun h => h.refresh h₁ h₀, fun h => ?_⟩
  · simp only [Master.boxCfg]
    split_ifs <;> rfl
  · simp only [Master.boxCfg]
    split_ifs with hb
    · exact width_toUInt8_ne_zero (hasBox_iff.mp hb)
    · exact h

theorem started (m : Master) : Continues m m.started := by
  unfold Master.started
  split_ifs
  · exact .enterProbing m
  · exact .refl m

theorem heard {m₁ : Master} (h : Heard m m₁) : Continues m m₁ := by
  obtain ⟨seen, lc, rfl⟩ := h
  exact (Continues.started m).trans ⟨rfl, rfl, rfl, rfl, rfl, id, id⟩

theorem ticked {m₀ : Master} (h : Ticked m m₀) : Continues m m₀ := by
  obtain ⟨seen, tick, rfl⟩ := h
  exact (Continues.started m).trans ⟨rfl, rfl, rfl, rfl, rfl, id, id⟩

theorem sceneMove {m' : Master} {emit : MasterEmit} (h : SceneMove tx m emit m') :
    Continues m m' := by
  cases h with
  | none => exact .refl m
  | opened | closed | dropped => exact ⟨rfl, rfl, rfl, rfl, rfl, id, id⟩
  | released => exact (Continues.enterGranting ..).after ⟨rfl, rfl, rfl, rfl, rfl, id, id⟩
  | bye => exact (Continues.enterProbing _).after ⟨rfl, rfl, rfl, rfl, rfl, id, id⟩

theorem sceneAccount (tx : HeadampTx) (m : Master) (emit : MasterEmit)
    (hs : m.state = .probing ∨ m.state = .established) : Continues m (sceneAccount tx m emit) :=
  sceneMove (sceneAccount_move tx emit hs)

theorem rxMove {m' : Master} {ev : RxEvent} {src : Mac} {blk : Option Block} {r : Bool}
    (h : RxMove tx m ev src blk m' r) : Continues m m' := by
  cases h with
  | refused => exact .refl m
  | stay _ h₁ => exact .heard h₁
  | held h₁ => exact (heard h₁).trans ⟨rfl, rfl, rfl, rfl, rfl, id, id⟩
  | latch h₁ => exact (heard h₁).trans (.enterGranting ..)
  | relatch h₁ =>
    exact (heard h₁).trans ((Continues.enterGranting ..).after ⟨rfl, rfl, rfl, rfl, rfl, id, id⟩)
  | accept _ h₁ => exact (heard h₁).trans ⟨rfl, rfl, rfl, rfl, rfl, id, id⟩
  | bye _ h₁ =>
    exact (heard h₁).trans ((Continues.enterProbing _).after ⟨rfl, rfl, rfl, rfl, rfl, id, id⟩)

theorem nextMove {m' : Master} {s : Slot} (h : NextMove t tx m m' s) : Continues m m' := by
  cases h with
  | hunt h₀ hs =>
    refine (ticked h₀).trans ((sceneAccount tx _ _ ?_).after ⟨rfl, rfl, rfl, rfl, rfl, id, id⟩)
    exact .inl hs
  | grant h₀ | delivered h₀ | wait h₀ => exact (ticked h₀).trans ⟨rfl, rfl, rfl, rfl, rfl, id, id⟩
  | boxUnknown h₀ =>
    exact (ticked h₀).trans ((Continues.enterProbing _).after ⟨rfl, rfl, rfl, rfl, rfl, id, id⟩)
  | locked h₀ hs =>
    refine (ticked h₀).trans ((sceneAccount tx _ _ ?_).after ⟨rfl, rfl, rfl, rfl, rfl, id, id⟩)
    exact .inr hs
  | lost h₀ hs hc lc blk desc inflight hlc hleft =>
    rename_i m₀ c
    refine (ticked h₀).trans ?_
    have hp := Continues.enterProbing { m₀ with cad := c, linkCheck := lc, dropReason := .peerGone }
    exact ⟨hp.geo, hp.src, hp.scene, hp.chanmap, hp.pace, hp.sweep, hp.width⟩

theorem declared (m : Master) {a : GrantAlloc} {rows : List Template} (h : IsSweep a rows) :
    Continues m (m.declared a rows) := by
  have hpos := h.length.2
  refine ⟨rfl, rfl, rfl, rfl, rfl, fun _ => ⟨fun _ => h, fun hb => ?_⟩,
    fun _ => width_toUInt8_ne_zero hpos⟩
  have hzero : a.width = 0 := hasBox_eq_false_iff.mp hb
  omega

/-- One call of the owner. -/
theorem step (t : MasterTunables) (m : Master) (i : HeadampTx × MasterInput) :
    Continues m (masterStep t m i).1 := by
  obtain ⟨tx, i⟩ := i
  cases i with
  | rx ev src blk => exact rxMove (masterRx_move tx m ev src blk)
  | next => exact nextMove (masterNext_move t tx m)
  | regrant => exact .enterGranting ..
  | setHeadampSrc present =>
    obtain ⟨rows, h₁, h₀, heq⟩ := masterSetHeadampSrc_eq tx m present
    simp only [masterStep, heq]
    exact ⟨rfl, rfl, rfl, rfl, rfl, fun h => h.refresh h₁ h₀, id⟩
  | setBox inCh outCh base =>
    rcases masterSetBox_cases tx m inCh outCh base with h | ⟨a, rows, h, -, -, hsweep⟩
    · simp only [masterStep, h]
      exact .refl m
    · simp only [masterStep, h]
      exact .declared m hsweep

end Continues

/-- A window of this master is counted in strides of twelve, after a dwell that leaves room in an
`int`, over the sweep of its allocation. -/
structure Master.WindowRoom (m : Master) : Prop where
  stride : m.geo.grantStride = 12
  dwell : m.geo.DwellOk
  sweep : m.SweepOk

theorem Continues.room (h : Continues m m') (room : m.WindowRoom) : m'.WindowRoom :=
  ⟨h.geo ▸ room.stride, h.geo ▸ room.dwell, h.sweep room.sweep⟩

end Libreac
