import Libreac.Proofs.PhantomProofs
import Libreac.Proofs.RecoveryProofs
import Libreac.Proofs.ReplayProofs

/-!
# Proofs: no head-amp setting that nobody asked for

A value travels from the operator through the table of the desk, the rows of a grant or the overlay, and the
wire to the head-amp of the box. At each of these places it is one that was asked for, or the one every
channel is enrolled with, which leaves phantom power off.
-/

namespace Libreac

open Reactive (Delivered Duplex Leads Side Traffic Upholds duplex duplex_rely_guarantee)

/-- A setting of a channel: the one it is enrolled with, or one that is among those asked for. -/
def Wanted (P : ℕ → ℕ → UInt8 → Prop) (ch param : ℕ) (value : UInt8) : Prop :=
  value = headampDefault param ∨ P ch param value

/-- A row that speaks to a head-amp says what is wanted. -/
def WantedRow (P : ℕ → ℕ → UInt8 → Prop) (row : Template) : Prop :=
  ∀ ch param value, headampRecord row = some (ch, param, value) → Wanted P ch param value

variable {P : ℕ → ℕ → UInt8 → Prop} {t : MasterTunables} {tx : HeadampTx} {m m' : Master} {env : Env} {p : Pacer}

/-! ## The table -/

/-- The table asks for what is wanted. -/
def WantedTable (P : ℕ → ℕ → UInt8 → Prop) (tx : HeadampTx) : Prop :=
  ∀ ch param, Wanted P ch param (headampTxEffective (some tx) ch param)

theorem wantedTable_init : WantedTable P headampTxInit := by
  intro ch param
  left
  unfold headampTxEffective headampTxInit headampNparams headampDefault
  split_ifs with hparam h2 <;> simp_all

/-- A command changes its own cell. -/
theorem headampTxSet_wanted {tx' : HeadampTx} {ch param : ℕ} {value : UInt8} (h : WantedTable P tx)
    (hP : P ch param value) (hset : headampTxSet tx ch param value = some tx') : WantedTable P tx' := by
  unfold headampTxSet at hset
  split_ifs at hset with hlegal
  obtain rfl := Option.some.inj hset
  intro c q
  by_cases hcell : c = ch ∧ q = param
  · obtain ⟨rfl, rfl⟩ := hcell
    right
    rw [headampTxEffective_set hlegal.1 (paramValueOk_lt hlegal.2) (setCell_self ..)]
    dsimp only
    rw [setCell_self]
    exact hP
  · rw [headampTxEffective_congr (setCell_of_ne _ _ hcell) (setCell_of_ne _ _ hcell)]
    exact h c q

theorem foldl_wanted {cmds : List (ℕ × ℕ × UInt8)} (h : WantedTable P tx) (hP : ∀ c ∈ cmds, P c.1 c.2.1 c.2.2) :
    WantedTable P (cmds.foldl (fun t c => (headampTxSet t c.1 c.2.1 c.2.2).getD t) tx) := by
  induction cmds generalizing tx with
  | nil => exact h
  | cons cmd cmds ih =>
    rw [List.foldl_cons]
    refine ih ?_ fun c hc => hP c (List.mem_cons_of_mem _ hc)
    cases hset : headampTxSet tx cmd.1 cmd.2.1 cmd.2.2 with
    | none => exact h
    | some tx' => exact headampTxSet_wanted h (hP cmd List.mem_cons_self) hset

/-! ## The rows of a window -/

/-- The rows on hand say what is wanted. -/
def WantedRows (P : ℕ → ℕ → UInt8 → Prop) (m : Master) : Prop := ∀ row ∈ m.grantBurst, WantedRow P row

/-- A sweep says what its table asks for; without a table it says the defaults. -/
theorem sweep_wanted {a : GrantAlloc} {rows : List Template} {present : Bool} (h : WantedTable P tx)
    (hrows : grantBuildSweep a (if present then some tx else none) = some rows) : ∀ row ∈ rows, WantedRow P row := by
  intro row hrow ch param value hrec
  obtain ⟨rfl, -⟩ := sweep_record hrows hrow hrec
  cases present with
  | true => exact h ch param
  | false =>
    left
    unfold headampTxEffective headampDefault headampNparams
    split_ifs <;> simp_all

theorem rebuildGrantSweep_wanted {base inCh : ℤ} (h : WantedTable P tx)
    (hm : rebuildGrantSweep tx m base inCh = some m') : WantedRows P m' := by
  unfold rebuildGrantSweep at hm
  split at hm
  · cases hm
  · split at hm
    · cases hm
    · rename_i hrows
      obtain rfl := Option.some.inj hm
      exact sweep_wanted h hrows

namespace WantedRows

theorem congr (h : WantedRows P m) (hrows : m'.grantBurst = m.grantBurst) : WantedRows P m' := by
  intro row hrow
  rw [hrows] at hrow
  exact h row hrow

theorem refresh (h : WantedRows P m) (htx : WantedTable P tx) : WantedRows P (refreshGrantSweep tx m) := by
  unfold refreshGrantSweep
  cases hm : rebuildGrantSweep tx m m.alloc.base m.alloc.width with
  | none => exact h
  | some m' => exact rebuildGrantSweep_wanted htx hm

theorem enterGranting (h : WantedRows P m) (htx : WantedTable P tx) (src : Mac) (blk : Option Block) :
    WantedRows P (enterGranting tx m src blk) :=
  WantedRows.refresh (m := { m with
    state := .granting
    win := { m.win with grantTicks := 0, enrollSentTick := 0, dwellEndedTick := 0 }
    grantAttempts := m.grantAttempts + 1
    boxMac := src, joinBlk := blk.getD m.joinBlk }) h htx

theorem enterProbing (h : WantedRows P m) : WantedRows P (enterProbing m) := by
  unfold Libreac.enterProbing masterForgetBox
  dsimp only
  split_ifs
  · exact fun row hrow => absurd hrow List.not_mem_nil
  · exact h

theorem started (h : WantedRows P m) : WantedRows P m.started := by
  unfold Master.started
  split_ifs
  · exact h.enterProbing
  · exact h

theorem heard {m₁ : Master} (h : WantedRows P m) (h₁ : Heard m m₁) : WantedRows P m₁ := by
  obtain ⟨seen, lc, rfl⟩ := h₁
  exact h.started

theorem ticked {m₀ : Master} (h : WantedRows P m) (h₀ : Ticked m m₀) : WantedRows P m₀ := by
  obtain ⟨seen, tick, rfl⟩ := h₀
  exact h.started

theorem sceneMove {emit : MasterEmit} (h : WantedRows P m) (htx : WantedTable P tx)
    (hm : SceneMove tx m emit m') : WantedRows P m' := by
  cases hm with
  | none | opened | closed | dropped => exact h
  | released _ _ _ _ _ drop =>
    have hbase : WantedRows P { m.completed with joinHeld := false, dropReason := drop } := h
    exact hbase.enterGranting htx _ _
  | bye =>
    have hbase : WantedRows P { m.completed with joinHeld := false, dropReason := .bye } := h
    exact hbase.enterProbing

theorem rxMove {ev : RxEvent} {src : Mac} {blk : Option Block} {r : Bool} (h : WantedRows P m)
    (htx : WantedTable P tx) (hm : RxMove tx m ev src blk m' r) : WantedRows P m' := by
  cases hm with
  | refused => exact h
  | stay _ h₁ => exact h.heard h₁
  | held h₁ | accept _ h₁ => exact (h.heard h₁).congr rfl
  | latch h₁ => exact (h.heard h₁).enterGranting htx _ _
  | @relatch m₁ h₁ _ _ _ _ drop =>
    have hbase : WantedRows P { m₁ with dropReason := drop } := (h.heard h₁).congr rfl
    exact hbase.enterGranting htx _ _
  | @bye m₁ _ h₁ =>
    have hbase : WantedRows P { m₁ with dropReason := .bye } := (h.heard h₁).congr rfl
    exact hbase.enterProbing

theorem nextMove {s : Slot} (h : WantedRows P m) (htx : WantedTable P tx) (hm : NextMove t tx m m' s) :
    WantedRows P m' := by
  cases hm with
  | @hunt m₀ h₀ hs c _ _ blk desc =>
    have hbase : WantedRows P { m₀ with cad := c, sceneBlk := blk, fillerDesc := desc } := (h.ticked h₀).congr rfl
    exact hbase.sceneMove htx (sceneAccount_move tx _ (.inl hs))
  | grant h₀ | wait h₀ | delivered h₀ => exact (h.ticked h₀).congr rfl
  | @boxUnknown m₀ h₀ _ _ c =>
    have hbase : WantedRows P { m₀ with cad := c, win := m₀.win.tick, dropReason := .boxUnknown } :=
      (h.ticked h₀).congr rfl
    exact hbase.enterProbing
  | @locked m₀ h₀ hs c _ _ lc blk desc =>
    have hbase : WantedRows P { m₀ with cad := c, linkCheck := lc, sceneBlk := blk, fillerDesc := desc } :=
      (h.ticked h₀).congr rfl
    exact hbase.sceneMove htx (sceneAccount_move tx _ (.inr hs))
  | @lost m₀ h₀ _ c _ _ lc =>
    have hbase : WantedRows P { m₀ with cad := c, linkCheck := lc, dropReason := .peerGone } :=
      (h.ticked h₀).congr rfl
    exact hbase.enterProbing

theorem step (h : WantedRows P m) (htx : WantedTable P tx) (i : MasterInput) :
    WantedRows P (masterStep t m (tx, i)).1 := by
  cases i with
  | rx ev src blk => exact h.rxMove htx (masterRx_move tx m ev src blk)
  | next => exact h.nextMove htx (masterNext_move t tx m)
  | regrant => exact h.enterGranting htx _ _
  | setHeadampSrc present => exact WantedRows.refresh (m := { m with headampSrc := present }) h htx
  | setBox inCh outCh base =>
    simp only [masterStep, masterSetBox]
    cases hm : rebuildGrantSweep tx m base inCh with
    | none => exact h
    | some m' =>
      have hbuilt := rebuildGrantSweep_wanted htx hm
      dsimp only
      by_cases hrestart : m.hasBox = false ∧ m.state = .granting
      · rw [if_pos hrestart]
        exact hbuilt.congr rfl
      · rw [if_neg hrestart]
        exact hbuilt.congr rfl

theorem path (h : WantedRows P m) (htx : WantedTable P tx) (hpath : MasterPath t tx m m') : WantedRows P m' := by
  induction hpath with
  | refl => exact h
  | step _ i ih => exact ih.step htx i
  | answered _ _ ih => exact ih

end WantedRows

/-! ## The desk -/

/-- Everything the desk may send to a head-amp is wanted. -/
structure DeskWants (P : ℕ → ℕ → UInt8 → Prop) (p : Pacer) : Prop where
  stamps : StampInv p.master
  wire : WireOk p
  table : WantedTable P p.headamp
  queue : ∀ c ∈ p.headampCmds, P c.1 c.2.1 c.2.2
  rows : WantedRows P p.master

namespace DeskWants

theorem drained (h : DeskWants P p) : WantedTable P p.drained := foldl_wanted h.table h.queue

theorem rateDrain (h : DeskWants P p) (env : Env) : DeskWants P (rateDrain env p).1 := by
  have hwire := h.wire.rateDrain env
  unfold Libreac.rateDrain at hwire ⊢
  split_ifs at hwire ⊢
  · obtain ⟨cfg, hm⟩ := applyRate_master env { p with rateReqSeen := p.rateReqSeq } p.rateReqHz
    have hinit := stampInv_init env.tunables env.placeholder p.src cfg (p.rateReqHz.tdiv samplesPerPkt)
    refine ⟨?_, hwire, h.table, h.queue, ?_⟩
    · rw [hm]
      exact hinit.step env.tunables (p.headamp, .setHeadampSrc true)
    · rw [hm]
      refine WantedRows.step (t := env.tunables) ?_ h.table (.setHeadampSrc true)
      have hnone := hinit.sweep.2
      obtain ⟨blk, desc, heq⟩ := masterInit_eq env.tunables env.placeholder p.src cfg (p.rateReqHz.tdiv samplesPerPkt)
      rw [heq]
      exact fun row hrow => absurd hrow List.not_mem_nil
  · exact h

theorem step (h : DeskWants P p) (env : Env) {i : PacerInput}
    (hasked : ∀ ch param value, i = .headampSet ch param value → P ch param value) :
    DeskWants P (pacerStep env p i).1 := by
  have hwire := h.wire.step env i
  cases i with
  | frame bytes =>
    have hpath := rxIngest_path env p bytes
    refine ⟨h.stamps.path hpath, hwire, ?_, ?_, h.rows.path h.table hpath⟩
    · intro ch param
      exact (rxIngest_effective env p bytes ch param).symm ▸ h.table ch param
    · rw [show (pacerStep env p (.frame bytes)).1.headampCmds = p.headampCmds from rxIngest_cmds env p bytes]
      exact h.queue
  | slot =>
    have h₁ := h.rateDrain env
    rw [(pacerStep_slot_eq env p).1] at hwire ⊢
    generalize (Libreac.rateDrain env p).1 = p₁ at h₁ hwire
    have hpath := masterSlot_path env p₁
    refine ⟨h₁.stamps.path hpath, hwire, ?_, ?_, h₁.rows.path h₁.table hpath⟩
    · intro ch param
      exact (masterSlot_effective h₁.wire env ch param).symm ▸ h₁.drained ch param
    · obtain ⟨_, _, _, _, _, _, _, _, _, _, heq, -⟩ := masterSlot_eq env p₁
      rw [heq]
      exact fun c hc => absurd hc List.not_mem_nil
  | requestRate | requestReestablish => exact ⟨h.stamps, hwire, h.table, h.queue, h.rows⟩
  | headampSet ch param value =>
    simp only [pacerStep, headampSet] at hwire ⊢
    split_ifs at hwire ⊢
    · exact h
    · refine ⟨h.stamps, hwire, h.table, ?_, h.rows⟩
      intro c hc
      rcases List.mem_append.mp hc with hc | hc
      · exact h.queue c hc
      · obtain rfl := List.mem_singleton.mp hc
        exact hasked ch param value rfl

/-- A record on the wire is wanted. -/
theorem record (h : DeskWants P p) (env : Env) {ch param : ℕ} {value : UInt8}
    (hrec : (masterSlot env p).2.2.record = some (ch, param, value)) : Wanted P ch param value := by
  have hrows : WantedRows P (p.next env).1 :=
    h.rows.path h.table ((MasterPath.refl p.master).step (t := env.tunables) .next)
  rcases masterSlot_record h.wire env hrec with ⟨hgrant, hstamp⟩ | hover
  · -- A row of the window, with its checksum.
    obtain ⟨b, hb, hrec'⟩ := Option.bind_eq_some_iff.mp hstamp
    unfold masterStamp at hb
    rw [hgrant] at hb
    dsimp only at hb
    split_ifs at hb
    obtain ⟨row, hrow, rfl⟩ := Option.map_eq_some_iff.mp hb
    rw [headampRecord_congr fun i hi => byte_stampBlockCksum row (by omega)] at hrec'
    exact hrows row (List.mem_of_getElem? hrow) ch param value hrec'
  · have hvalue : value = headampTxEffective (some p.drained) ch param := hover
    rw [hvalue]
    exact h.drained ch param

theorem opened (env : Env) {cfg : PacerCfg} (hcfg : ∀ c ∈ cfg.headamps, P c.1 c.2.1 c.2.2) :
    DeskWants P (pacerOpen env cfg) := by
  have hinit := stampInv_init env.tunables env.placeholder cfg.srcMac (some cfg.consoleCfg) cfg.fps
  have htable : WantedTable P (headampOpen cfg.fps cfg.headamps) := foldl_wanted wantedTable_init hcfg
  refine ⟨hinit.step env.tunables (headampOpen cfg.fps cfg.headamps, .setHeadampSrc true), wireOk_open env cfg,
    htable, fun c hc => absurd hc List.not_mem_nil, ?_⟩
  refine WantedRows.step (t := env.tunables) ?_ htable (.setHeadampSrc true)
  obtain ⟨blk, desc, heq⟩ := masterInit_eq env.tunables env.placeholder cfg.srcMac (some cfg.consoleCfg) cfg.fps
  rw [heq]
  exact fun row hrow => absurd hrow List.not_mem_nil

end DeskWants

/-- A head-amp record in a frame of the desk is wanted; the box guarantees nothing. -/
def HeadampSends (P : ℕ → ℕ → UInt8 → Prop) : Side → Traffic (List UInt8) → List UInt8 → Prop
  | .left, _, g => ∀ ch param value, (ctrlParse g).headamp = some (ch, param, value) → Wanted P ch param value
  | .right, _, _ => True

theorem DeskWants.sends (h : DeskWants P p) (env : Env) {i : PacerInput} (q : Option QueuedFrame) {sent : Sent}
    (hsent : sent ∈ (pacerStep env p i).2.sent) {ch param : ℕ} {value : UInt8}
    (hrec : (ctrlParse (deskFrame p.src q sent)).headamp = some (ch, param, value)) : Wanted P ch param value := by
  cases i with
  | slot =>
    rw [(pacerStep_slot_eq env p).2] at hsent
    obtain rfl := Option.some.inj hsent
    have hdrained := h.rateDrain env
    obtain ⟨b, hb, -⟩ := masterSlot_stamps env hdrained.stamps
    have hcarries := (@deskFrame_carries p.src q _ _ hb).1
    refine hdrained.record env ?_
    rw [Sent.record, hb, Option.bind_some, ← hcarries.headamp]
    exact hrec
  | frame | requestRate | requestReestablish | headampSet => cases hsent

theorem desk_upholds_wanted (env : Env) (P : ℕ → ℕ → UInt8 → Prop) :
    Upholds (deskStation env) (fun i => ∀ ch param value, i.1 = .headampSet ch param value → P ch param value)
      .left .right (HeadampSends P) (fun _ p => DeskWants P p) where
  lasting _ _ _ h := h
  step _ _ _ _ h hasked _ := h.step env hasked
  sends w p i _ h _ _ f hf := by
    obtain ⟨sent, hsent, rfl⟩ := Option.map_eq_some_iff.mp hf
    intro ch param value hrec
    exact h.sends env i.2 hsent hrec

/-! ## The box -/

section Box

variable {u : BoxUnit} {s s' : Slave} {cfg : SlaveCfg}

/-- The head-amps of two slaves are set alike. -/
structure SameAmps (s s' : Slave) : Prop where
  phantom : s'.haPhantom = s.haPhantom
  pad : s'.haPad = s.haPad
  sens : s'.haSens = s.haSens

theorem SameAmps.refl (s : Slave) : SameAmps s s := ⟨rfl, rfl, rfl⟩

theorem SameAmps.trans {s₁ s₂ s₃ : Slave} (h : SameAmps s₁ s₂) (h' : SameAmps s₂ s₃) : SameAmps s₁ s₃ :=
  ⟨h'.phantom.trans h.phantom, h'.pad.trans h.pad, h'.sens.trans h.sens⟩

theorem slaveEmit_amps (cfg : SlaveCfg) (s : Slave) (d : SlaveDecision) (i : SlaveInput) :
    SameAmps s (slaveEmit cfg s d i).1 := by
  have hdesk : SameAmps s (emitDesk cfg s d).1 := by
    unfold emitDesk
    dsimp only
    split
    · exact .refl s
    · exact .refl s
    · split_ifs <;> exact ⟨rfl, rfl, rfl⟩
    · exact .refl s
    · exact .refl s
  have hbox : SameAmps s (emitBoxMaster cfg s d i.now).1 := by
    unfold emitBoxMaster bmPresilent bmSpeak
    dsimp only
    split_ifs <;> exact ⟨rfl, rfl, rfl⟩
  have hemit : SameAmps s (emitDecision cfg s d i.now).1 := by
    unfold emitDecision
    split_ifs
    · exact hbox
    · exact hdesk
  exact hemit

theorem bmHears_amps (cfg : SlaveCfg) (s : Slave) (p : CtrlParsed) (now : UInt64) :
    SameAmps s (bmHears cfg s p now) := by
  unfold bmHears
  dsimp only
  split_ifs <;> exact ⟨rfl, rfl, rfl⟩

theorem counterLock_amps (s : Slave) (p : CtrlParsed) : SameAmps s (counterLock s p) := by
  unfold counterLock
  dsimp only
  split_ifs <;> exact ⟨rfl, rfl, rfl⟩

/-- The frame carries a head-amp record that a box obeys. -/
structure SetsAmp (bytes : List UInt8) : Prop where
  reac : frameIsReac bytes = true
  kind : (ctrlParse bytes).kind = .headamp
  verified : headampRecordVerify bytes = true

/-- A pass of the loop sets a head-amp where the frame it heard says so, and nowhere else. -/
theorem slaveLoop_amps (cfg : SlaveCfg) (s : Slave) (i : SlaveInput) :
    (SameAmps s (slaveLoop cfg s i).1 ∧ ∀ bytes, i.ev.frame? = some bytes → ¬ SetsAmp bytes) ∨
      ∃ bytes, i.ev.frame? = some bytes ∧ SetsAmp bytes ∧
        SameAmps (slaveHeadampRx cfg s (ctrlParse bytes)) (slaveLoop cfg s i).1 := by
  have hemit : ∀ {s₁ : Slave} {d : SlaveDecision}, SameAmps s s₁ → SameAmps s (slaveEmit cfg s₁ d i).1 :=
    fun h => h.trans (slaveEmit_amps cfg _ _ i)
  cases hi : i.ev with
  | phy want =>
    refine .inl ⟨?_, by simp [SlaveEvent.frame?]⟩
    simp only [slaveLoop, hi, slaveStep]
    split_ifs
    · exact .refl s
    · exact hemit ⟨rfl, rfl, rfl⟩
    · exact ⟨rfl, rfl, rfl⟩
  | idle =>
    refine .inl ⟨?_, by simp [SlaveEvent.frame?]⟩
    simp only [slaveLoop, hi, slaveStep]
    exact hemit ⟨rfl, rfl, rfl⟩
  | frame bytes =>
    -- What comes after the head-amp record leaves the settings alone.
    have hrest : ∀ s₁ : Slave, SameAmps s₁ (if (ctrlParse bytes).src = cfg.src then (s₁, none)
        else slaveEmit cfg (counterLock (slaveStep (bmHears cfg s₁ (ctrlParse bytes) i.now) (.rx (ctrlParse bytes))).1
          (ctrlParse bytes)) (slaveStep (bmHears cfg s₁ (ctrlParse bytes) i.now) (.rx (ctrlParse bytes))).2 i).1 := by
      intro s₁
      split_ifs
      · exact .refl s₁
      · have hheard := bmHears_amps cfg s₁ (ctrlParse bytes) i.now
        have hstep : SameAmps (bmHears cfg s₁ (ctrlParse bytes) i.now)
            (slaveStep (bmHears cfg s₁ (ctrlParse bytes) i.now) (.rx (ctrlParse bytes))).1 := ⟨rfl, rfl, rfl⟩
        exact ((hheard.trans hstep).trans (counterLock_amps _ _)).trans (slaveEmit_amps cfg _ _ i)
    have hloop : slaveLoop cfg s i = slaveRx cfg s bytes i := by simp only [slaveLoop, hi]
    rw [hloop]
    unfold slaveRx
    by_cases hreac : frameIsReac bytes = true
    · rw [hreac, if_neg (by decide)]
      dsimp only
      by_cases hrec : (ctrlParse bytes).kind = .headamp ∧ headampRecordVerify bytes = true
      · rw [if_pos hrec]
        exact .inr ⟨bytes, rfl, ⟨hreac, hrec.1, hrec.2⟩, hrest _⟩
      · rw [if_neg hrec]
        refine .inl ⟨hrest s, ?_⟩
        rintro _ ⟨⟩ hsets
        exact hrec ⟨hsets.kind, hsets.verified⟩
    · rw [if_pos (by simpa using hreac)]
      refine .inl ⟨.refl s, ?_⟩
      rintro _ ⟨⟩ hsets
      exact hreac hsets.reac

/-- What the head-amps of the box are set to is wanted. -/
structure Amped (P : ℕ → ℕ → UInt8 → Prop) (u : BoxUnit) (s : Slave) : Prop where
  phantom : ∀ i, s.haPhantom i ≠ 0 → ∃ value, value ≠ 0 ∧ P (u.chBase + i).toNat 0 value
  pad : ∀ i, s.haPad i ≠ 0 → ∃ value, value ≠ 0 ∧ P (u.chBase + i).toNat 1 value
  sens : ∀ i, s.haSens i ≠ 0 → Wanted P (u.chBase + i).toNat 2 (s.haSens i)

theorem Amped.same (h : Amped P u s) (hsame : SameAmps s s') : Amped P u s' := by
  refine ⟨?_, ?_, ?_⟩
  · rw [hsame.phantom]
    exact h.phantom
  · rw [hsame.pad]
    exact h.pad
  · rw [hsame.sens]
    exact h.sens

/-- One cell of a table is written, and the others are as they were. -/
theorem update_cells {cells : ℕ → UInt8} {Q : ℕ → UInt8 → Prop} (h : ∀ i, cells i ≠ 0 → Q i (cells i)) {idx : ℕ}
    {value : UInt8} (hput : value ≠ 0 → Q idx value) :
    ∀ i, Function.update cells idx value i ≠ 0 → Q i (Function.update cells idx value i) := by
  intro i hi
  by_cases hown : i = idx
  · subst hown
    rw [Function.update_self] at hi ⊢
    exact hput hi
  · rw [Function.update_of_ne hown] at hi ⊢
    exact h i hi

/-- A record sets the cell of its own channel. -/
theorem Amped.record (h : Amped P u s) {p : CtrlParsed} (hP : Wanted P p.ch.toNat p.param.toNat p.value) :
    Amped P u (slaveHeadampRx u.cfg s p) := by
  have hbase : u.cfg.chBase = u.chBase := rfl
  have hasked : ∀ {param : ℕ}, param ≠ 2 → Wanted P p.ch.toNat param p.value → p.value ≠ 0 →
      ∃ value, value ≠ 0 ∧ P p.ch.toNat param value := by
    rintro param hparam (hdefault | hasked) hne
    · rw [headampDefault, if_neg hparam] at hdefault
      exact absurd hdefault hne
    · exact ⟨_, hne, hasked⟩
  have hflag : (if p.value = 0 then (0 : UInt8) else 1) ≠ 0 → p.value ≠ 0 := by
    intro hne hzero
    rw [if_pos hzero] at hne
    exact hne rfl
  unfold slaveHeadampRx
  dsimp only
  rw [hbase]
  generalize (if p.value = 0 then (0 : UInt8) else 1) = flag at hflag
  split_ifs with hout hphantom hpad hsens
  · exact h
  · have hcell : (u.chBase + (((p.ch.toNat : ℤ) - u.chBase).toNat : ℤ)).toNat = p.ch.toNat := by omega
    rw [hphantom] at hP
    refine ⟨?_, h.pad, h.sens⟩
    refine update_cells (Q := fun i _ => ∃ value, value ≠ 0 ∧ P (u.chBase + i).toNat 0 value) h.phantom ?_
    intro hne
    rw [hcell]
    exact hasked (by decide) hP (hflag hne)
  · have hcell : (u.chBase + (((p.ch.toNat : ℤ) - u.chBase).toNat : ℤ)).toNat = p.ch.toNat := by omega
    rw [hpad] at hP
    refine ⟨h.phantom, ?_, h.sens⟩
    refine update_cells (Q := fun i _ => ∃ value, value ≠ 0 ∧ P (u.chBase + i).toNat 1 value) h.pad ?_
    intro hne
    rw [hcell]
    exact hasked (by decide) hP (hflag hne)
  · have hcell : (u.chBase + (((p.ch.toNat : ℤ) - u.chBase).toNat : ℤ)).toNat = p.ch.toNat := by omega
    rw [hsens] at hP
    refine ⟨h.phantom, h.pad, ?_⟩
    refine update_cells (Q := fun i value => Wanted P (u.chBase + i).toNat 2 value) h.sens ?_
    intro _
    rw [hcell]
    exact hP
  · exact h

theorem box_upholds_wanted (u : BoxUnit) (P : ℕ → ℕ → UInt8 → Prop) :
    Upholds (boxStation u) (fun _ => True) .right .left (HeadampSends P) (fun _ s => Amped P u s) where
  lasting _ _ _ h := h
  step w s i hw h _ hheard := by
    rcases slaveLoop_amps u.cfg s i.1 with ⟨hsame, -⟩ | ⟨bytes, hbytes, hsets, hsame⟩
    · exact h.same hsame
    · obtain ⟨pre, post, -, hsent⟩ := hw.of_mem (hheard bytes hbytes)
      refine (h.record ?_).same hsame
      exact hsent _ _ _ (if_pos hsets.kind)
  sends _ _ _ _ _ _ _ _ _ := trivial

end Box

/-! ## A command on its way -/

/-- A pacer with no command waiting, whose table says `value`. -/
structure QuietTable (value : ℕ → ℕ → UInt8) (p : Pacer) : Prop where
  phantom : PhantomInv p
  cmds : p.headampCmds = []
  table : ∀ ch param, headampTxEffective (some p.headamp) ch param = value ch param

namespace QuietTable

variable {value : ℕ → ℕ → UInt8} {i : PacerInput}

/-- A slot applies the commands. -/
theorem of_slot (inv : PhantomInv p) (env : Env) (hstays : PhantomStays p .slot) (hpend : p.rateReqPending = false) :
    QuietTable (headampTxEffective (some p.drained)) (pacerStep env p .slot).1 := by
  refine ⟨(inv.step env .slot hstays).1, (slot_idles env p).cmds, ?_⟩
  rw [(pacerStep_slot env hpend).1]
  exact masterSlot_effective inv.wire env

/-- Without a command the table stays. -/
theorem step (h : QuietTable value p) (env : Env) (hi : ∀ ch param v, i ≠ .headampSet ch param v) :
    QuietTable value (pacerStep env p i).1 := by
  have hphantom := (h.phantom.step env i (.of_idle h.cmds i)).1
  cases i with
  | frame bytes =>
    refine ⟨hphantom, (rxIngest_cmds env p bytes).trans h.cmds, fun ch param => ?_⟩
    exact (rxIngest_effective env p bytes ch param).trans (h.table ch param)
  | slot =>
    refine ⟨hphantom, (slot_idles env p).cmds, fun ch param => ?_⟩
    have hdrain : (rateDrain env p).1.headampCmds = [] ∧
        headampTxEffective (some (rateDrain env p).1.headamp) ch param = value ch param := by
      unfold rateDrain
      split_ifs
      · exact ⟨h.cmds, h.table ch param⟩
      · exact ⟨h.cmds, h.table ch param⟩
    rw [(pacerStep_slot_eq env p).1, masterSlot_effective (h.phantom.wire.rateDrain env) env,
      drained_of_idle hdrain.1]
    exact hdrain.2
  | requestRate | requestReestablish => exact ⟨hphantom, h.cmds, h.table⟩
  | headampSet ch param v => exact absurd rfl (hi ch param v)

theorem run (h : QuietTable value p) (env : Env) {is : List PacerInput}
    (his : ∀ i ∈ is, ∀ ch param v, i ≠ .headampSet ch param v) : QuietTable value ((pacerMachine env).run p is) := by
  refine (pacerMachine env).run_invariant (L := fun _ i => ∀ ch param v, i ≠ .headampSet ch param v) h
    (fun _ _ hp hi => hp.step env hi) is ?_
  intro log e he
  exact his _ he.input_mem

/-- A restart keeps the table, with what was waiting for the first slot. -/
theorem restart {q : Pacer} {r : Rate} (inv : PhantomInv p) (hstays : PhantomStays p .slot)
    (hpend : p.rateReqPending = false) (h : RestartOf env r p q) :
    QuietTable (headampTxEffective (some p.drained)) q := by
  obtain ⟨n, rfl⟩ := h
  rw [Reactive.Machine.run_cons]
  refine (of_slot inv env hstays hpend).run env ?_
  intro i hi ch param v
  rcases List.mem_cons.mp hi with rfl | hi
  · nofun
  · rw [List.eq_of_mem_replicate hi]
    nofun

end QuietTable

section Told

variable {u : BoxUnit} {desk : Mac} {fps : ℤ} {a : GrantAlloc} {value : ℕ → ℕ → UInt8}
  {d : Duplex Pacer Slave (List UInt8)}

/-- A frame with a row that holds a record sets a head-amp. -/
theorem CarriesBlock.setsAmp {frame : List UInt8} {row : Template} (h : CarriesBlock frame (stampBlockCksum row))
    {record : ℕ × ℕ × UInt8} (hrec : headampRecord row = some record)
    (hcloses : recordCksumVerify (fun i => row.byte (18 + i)) 6 = true) :
    SetsAmp frame ∧ (ctrlParse frame).headamp = some record := by
  have hparsed : (ctrlParse frame).headamp = some record := by
    rw [h.headamp, headampRecord_stampBlockCksum, hrec]
  have hkind : (ctrlParse frame).kind = .headamp := by
    by_contra hne
    rw [CtrlParsed.headamp, if_neg hne] at hparsed
    cases hparsed
  have hblock : ∀ i < 33, byteAt frame (16 + i) = row.byte i := by
    intro i hi
    rw [h.block i (by omega), byte_stampBlockCksum row (by omega)]
  obtain ⟨-, -, hlink, hlen, -⟩ := kind_headamp_iff.mp (h.kind.symm.trans hkind)
  refine ⟨⟨?_, hkind, ?_⟩, hparsed⟩
  · have hlong := h.long
    simp only [frameIsReac, h.etype, and_self, and_true, decide_eq_true_eq]
    omega
  · have hsum : byteSum (fun i => byteAt frame (34 + i)) 6 = byteSum (fun i => row.byte (18 + i)) 6 :=
      byteSum_congr fun i hi => (by
        have hbyte := hblock (18 + i) (by omega)
        rwa [← Nat.add_assoc] at hbyte)
    unfold recordCksumVerify at hcloses
    rw [← hsum] at hcloses
    rw [headampRecordVerify, decide_eq_true_eq]
    exact ⟨(h.block 2 (by omega)).trans hlink, (h.block 3 (by omega)).trans hlen, hcloses⟩

/-- The slot of a row sends it with its checksum. -/
theorem grantRow_ctrl (env : Env) (hs : StampInv p.master) {k : ℕ} (hidx : (p.next env).2.grantIdx = some (k : ℤ))
    {row : Template} (hrow : (p.next env).1.grantBurst[k]? = some row) :
    (masterSlot env p).2.2.ctrl = some (stampBlockCksum row) := by
  obtain ⟨b, hb, hstamp, -⟩ := masterSlot_ctrl env hs
  obtain ⟨hemit, hk⟩ : (p.next env).2.emit = .grant ∧ (p.next env).2.idx = k := by
    unfold Slot.grantIdx at hidx
    split_ifs at hidx with hg
    exact ⟨hg, Option.some.inj hidx⟩
  obtain ⟨hstamped, -⟩ := hstamp (ne_of_eq_of_ne hemit (by decide))
  change masterStamp (p.next env).1 (p.next env).2 = some b at hstamped
  unfold masterStamp at hstamped
  rw [hemit, hk] at hstamped
  dsimp only at hstamped
  rw [if_neg (by omega), Int.toNat_natCast, hrow, Option.map_some] at hstamped
  rw [hb, ← hstamped]

/-- A hunting desk that hears the declaration tells the box each cell of its slots. -/
theorem SegmentKnown.tells (h : SegmentKnown desk u fps d) (hh : Hunting d.left) (ht : QuietTable value d.left)
    (env : Env) {g : List UInt8} (hg : (Side.right, g) ∈ d.wire) (hd : BoxDeclares desk g u.src u.row.ports a)
    (ch param : ℕ) (hcell : (ch, param) ∈ sceneCells a) : ∃ d' f,
      Leads (deskStation env) (boxStation u) d d' ∧ d'.right = d.right ∧ (Side.left, f) ∈ d'.wire ∧ SetsAmp f ∧
        (ctrlParse f).headamp = some (ch, param, value ch param) := by
  obtain ⟨d₁, hheard, hleft₁, hright₁, -⟩ := Leads.left (A := deskStation env) (B := boxStation u) d
    (.frame g, none) (by
      intro f hf
      obtain rfl := Option.some.inj hf
      exact hg)
  change d₁.left = (pacerStep env d.left (.frame g)).1 at hleft₁
  rw [← h.left.src] at hd
  obtain ⟨hwindowed, halloc, -⟩ := hh.declares hd env
  obtain ⟨hfresh, hswept⟩ := hh.opens ht.phantom.armed.table hd env
  rw [← hleft₁] at hwindowed halloc hfresh hswept
  -- The row of the cell, in the sweep of the table.
  have hrows := hswept hwindowed.window.box
  have hpos : 0 < a.width := by
    rw [← halloc]
    exact hasBox_iff.mp hwindowed.window.box
  rw [halloc] at hrows
  obtain ⟨row, hrow, hrec⟩ :
      ∃ row ∈ d₁.left.master.grantBurst, headampRecord row = some (ch, param, value ch param) := by
    have hmem : cellRecord (some d.left.headamp) (ch, param) ∈ d₁.left.master.grantBurst.filterMap headampRecord := by
      rw [sweep_records hpos hrows]
      exact List.mem_map_of_mem hcell
    obtain ⟨row, hrow, hrec⟩ := List.mem_filterMap.mp hmem
    refine ⟨row, hrow, hrec.trans ?_⟩
    rw [cellRecord, ht.table]
  have hcloses := (sweep_closes hpos hrows hrow).2 (by simp [hrec])
  obtain ⟨k, hk⟩ := List.mem_iff_getElem?.mp hrow
  -- The slot that sends it.
  have hanchor := hwindowed.window.grantAnchor_nonneg
  obtain ⟨n, hpend, -, hidx, hburst⟩ := row_leaves env hwindowed.window hwindowed.idles.pending
    (List.getElem?_eq_some_iff.mp hk).1 (by rw [hfresh.1]; omega)
  obtain ⟨d₂, hruns, hleft₂, hright₂⟩ := leads_slots env u d₁ n
  rw [← hleft₂] at hpend hidx hburst
  have hknown₂ := (h.leads (hheard.trans hruns)).left
  have hctrl := grantRow_ctrl env hknown₂.stamps hidx (by rw [hburst]; exact hk)
  obtain ⟨d₃, hslot, -, hright₃, hwire⟩ := Leads.left (A := deskStation env) (B := boxStation u) d₂ deskSlot
    (by rintro f ⟨⟩)
  have hsent : ((deskStation env).machine.step d₂.left deskSlot).2 =
      some (deskFrame d₂.left.src none (masterSlot env d₂.left).2.2) := by
    rw [deskSlot_eq, (pacerStep_slot env hpend).2]
    rfl
  obtain ⟨hcarries, -⟩ := @deskFrame_carries d₂.left.src none _ _ hctrl
  obtain ⟨hsets, hparsed⟩ := hcarries.setsAmp hrec hcloses
  refine ⟨d₃, _, hheard.trans (hruns.trans hslot), ?_, hwire _ hsent, hsets, hparsed⟩
  rw [hright₃, hright₂, hright₁]

/-- A record of a channel that the box has sets its phantom power. -/
theorem slaveHeadampRx_phantom (cfg : SlaveCfg) (s : Slave) {rx : CtrlParsed} {ch : ℕ} {v : UInt8}
    (hrec : rx.headamp = some (ch, headampPhantom, v))
    (hrange : cfg.chBase ≤ ch ∧ (ch : ℤ) < cfg.chBase + cfg.boxChannels) :
    (slaveHeadampRx cfg s rx).haPhantom ((ch : ℤ) - cfg.chBase).toNat = if v = 0 then 0 else 1 := by
  unfold CtrlParsed.headamp at hrec
  split_ifs at hrec
  obtain ⟨hch, hparam, rfl⟩ : rx.ch.toNat = ch ∧ rx.param.toNat = headampPhantom ∧ rx.value = v := by
    simpa using hrec
  have hphantom : rx.param = 0 := UInt8.toNat_inj.mp hparam
  unfold slaveHeadampRx
  dsimp only
  rw [hch, if_neg (by omega), if_pos hphantom]
  exact Function.update_self ..

/-- The box obeys the record. -/
theorem leads_setsAmp (env : Env) {f : List UInt8} (hf : (Side.left, f) ∈ d.wire) (hsets : SetsAmp f) :
    ∃ d', Leads (deskStation env) (boxStation u) d d' ∧
      SameAmps (slaveHeadampRx u.cfg d.right (ctrlParse f)) d'.right := by
  have hlaid : ∀ g, some f = some g → (Side.left, g) ∈ d.wire := by
    rintro g ⟨rfl⟩
    exact hf
  obtain ⟨d', hl, hright, -⟩ :=
    Leads.right (A := deskStation env) (B := boxStation u) d ({ ev := .frame f }, none) hlaid
  refine ⟨d', hl, ?_⟩
  rw [hright]
  rcases slaveLoop_amps u.cfg d.right { ev := .frame f } with ⟨-, hnever⟩ | ⟨bytes, hbytes, -, hsame⟩
  · exact absurd hsets (hnever f rfl)
  · obtain rfl := Option.some.inj hbytes
    exact hsame

end Told

/-! ## From the operator to the box -/

/-- The setting was in the configuration of the desk or among the commands of the run. -/
def AmpAsked (cfg : PacerCfg) (is : List SegmentInput) (ch param : ℕ) (value : UInt8) : Prop :=
  (ch, param, value) ∈ cfg.headamps ∨ ∃ q, Sum.inl (PacerInput.headampSet ch param value, q) ∈ is

/-- Whatever is lost, doubled or late on the wire and however often the box comes and goes: phantom power
and pad are on only where a command for that very channel asked for it, and a SENS value is the one the
channel was enrolled with or one that was asked for. -/
theorem segment_amps_asked (env : Env) (cfg : PacerCfg) (u : BoxUnit) (is : List SegmentInput)
    (hwire : ∀ log e, (segment env u).StepOf (segmentStart env cfg u) is log e →
      Delivered (deskStation env) (boxStation u) e.pre e.input) :
    let s := ((segment env u).run (segmentStart env cfg u) is).right
    ∀ i, (s.haPhantom i ≠ 0 → ∃ value, value ≠ 0 ∧ AmpAsked cfg is (u.chBase + i).toNat headampPhantom value) ∧
      (s.haPad i ≠ 0 → ∃ value, value ≠ 0 ∧ AmpAsked cfg is (u.chBase + i).toNat 1 value) ∧
      (s.haSens i ≠ 0 → s.haSens i = headampDefault 2 ∨ AmpAsked cfg is (u.chBase + i).toNat 2 (s.haSens i)) := by
  have hdesk : DeskWants (AmpAsked cfg is) (pacerOpen env cfg) := .opened env fun c hc => .inl hc
  have hbox : Amped (AmpAsked cfg is) u (slaveFsmInit u.cfg) :=
    ⟨fun _ h => absurd rfl h, fun _ h => absurd rfl h, fun _ h => absurd rfl h⟩
  have hadmitted : ∀ i ∈ is, Sum.elim
      (fun i => ∀ ch param value, i.1 = .headampSet ch param value → AmpAsked cfg is ch param value)
      (fun _ => True) i := by
    rintro (⟨i, q⟩ | i) hi
    · rintro ch param value rfl
      exact .inr ⟨q, hi⟩
    · trivial
  obtain ⟨-, -, hright⟩ := duplex_rely_guarantee (desk_upholds_wanted env _) (box_upholds_wanted u _) hdesk hbox
    hadmitted hwire
  intro s i
  exact ⟨hright.phantom i, hright.pad i, hright.sens i⟩

/-- The operator switches phantom power on for the first channel of the box, and the box does it. -/
theorem segment_amps_asked_phantom : ∃ is,
    (∀ log e, (segment deskEnv plainUnit).StepOf (segmentStart deskEnv deskCfg plainUnit) is log e →
      Delivered (deskStation deskEnv) (boxStation plainUnit) e.pre e.input) ∧
    ((segment deskEnv plainUnit).run (segmentStart deskEnv deskCfg plainUnit) is).right.haPhantom 0 = 1 ∧
      ∃ value, value ≠ 0 ∧ AmpAsked deskCfg is 0x20 headampPhantom value := by
  obtain ⟨d₀, hcommand, hleft₀, -⟩ := Leads.left (A := deskStation deskEnv) (B := boxStation plainUnit)
    (segmentStart deskEnv deskCfg plainUnit) (.headampSet 0x20 headampPhantom 1, none) (by rintro f ⟨⟩)
  change d₀.left = (pacerStep deskEnv (pacerOpen deskEnv deskCfg) (.headampSet 0x20 headampPhantom 1)).1 at hleft₀
  have h₀ := (segmentStart_known deskEnv deskCfg plainUnit).leads hcommand
  have inv : PhantomInv d₀.left := by
    rw [hleft₀]
    exact ((phantomInv_open deskEnv deskCfg).step deskEnv _ (by rintro ⟨⟩)).1
  have hstays : PhantomStays d₀.left .slot := by
    rw [hleft₀]
    rintro - - ch ⟨-, l₁, l₂, hcmds, -⟩
    have hoff : (ch, headampPhantom, 0) ∈ l₁ ++ (ch, headampPhantom, 0) :: l₂ :=
      List.mem_append_right _ List.mem_cons_self
    rw [← hcmds] at hoff
    have hone : (ch, headampPhantom, (0 : UInt8)) ∈ [(0x20, headampPhantom, 1)] := hoff
    simp at hone
  have hpend : d₀.left.rateReqPending = false := by
    rw [hleft₀]
    rfl
  have hasks : headampTxEffective (some d₀.left.drained) 0x20 headampPhantom = 1 := by
    rw [hleft₀]
    rfl
  -- The desk starts over, the box declares itself, and the sweep tells it the table.
  obtain ⟨d₁, f, hrestarts, hrestart, hhunting, -, -, hf, hreac, hsrc, hkind⟩ := h₀.restarts deskEnv .r48000
  have htable := QuietTable.restart inv hstays hpend hrestart
  have h₁ := h₀.leads hrestarts
  obtain ⟨d₂, c, -, -, hcourts, hleft₂, -, hc, hdeclares⟩ :=
    h₁.courts plainUnit_placeable plainUnit_placeable.period deskEnv hf hreac hsrc hkind
  have h₂ := h₁.leads hcourts
  rw [← hleft₂] at hhunting htable
  obtain ⟨d₃, g, htells, -, hg, hsets, hrec⟩ :=
    h₂.tells hhunting htable deskEnv hc hdeclares 0x20 headampPhantom (by decide)
  obtain ⟨d₄, hhears, hamps⟩ := leads_setsAmp deskEnv (u := plainUnit) hg hsets
  obtain ⟨is, hwire, hrun⟩ := hcommand.trans (hrestarts.trans (hcourts.trans (htells.trans hhears)))
  have hon : ((segment deskEnv plainUnit).run (segmentStart deskEnv deskCfg plainUnit) is).right.haPhantom 0 = 1 := by
    change ((duplex (deskStation deskEnv) (boxStation plainUnit)).run _ is).right.haPhantom 0 = 1
    rw [hasks] at hrec
    have hset := slaveHeadampRx_phantom plainUnit.cfg d₃.right hrec (by decide)
    rw [hrun, hamps.phantom]
    exact hset
  refine ⟨is, hwire, hon, ?_⟩
  exact (segment_amps_asked deskEnv deskCfg plainUnit is hwire 0).1 (by rw [hon]; decide)

end Libreac
