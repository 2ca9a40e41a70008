import Libreac.Proofs.MasterProofs

/-!
# Proofs: what the master advertises

The announce, the ENROLL map, the channel map and the scene are written at different moments; in
every reachable state they agree with the configuration and the box in force. Each entry action
preserves `AnnounceOk`, which reads only the fields these blocks are made of.
-/

namespace Libreac

variable {t : MasterTunables} {tx : HeadampTx} {m : Master}

/-! ## The blocks -/

theorem genCfea_cksumOk (src : Mac) (cfg : ConsoleCfg) (boxCount : UInt16) :
    (genCfea src cfg boxCount).cksumOk := stampBlockCksum_cksumOk _

theorem genCfea_pace (src : Mac) (cfg : ConsoleCfg) (boxCount : UInt16) :
    (genCfea src cfg boxCount).byte 19 = cfg.consoleField := by
  unfold genCfea
  rw [byte_stampBlockCksum _ (by omega), byte_ofFn _ (by omega)]
  rfl

/-- A later group map replaces an earlier one whole. -/
theorem setEnrollWidth_setEnrollWidth (blk : Template) (w w' : ℤ) :
    setEnrollWidth (setEnrollWidth blk w) w' = setEnrollWidth blk w' := by
  refine stampBlockCksum_congr fun i hi => ?_
  rw [byte_ofFn _ (by omega), byte_ofFn _ (by omega)]
  dsimp only
  split_ifs with h₁ _ h₃
  · rfl
  · rfl
  · rfl
  · rfl
  · have hbyte := byte_stampBlockCksum (Vector.ofFn fun i : Fin 34 =>
        if 9 ≤ i.1 ∧ i.1 < 14 then if (i.1 : ℤ) - 9 < enrollGroups w then 0x41 else 0x00
        else if 14 ≤ i.1 ∧ i.1 < 19 then if enrollGroups w ≤ (i.1 : ℤ) - 14 then 0xc3 else 0x00
        else blk[i.1]) (show i ≠ 33 by omega)
    rw [byte_ofFn _ (by omega), byte_of_lt _ (by omega)] at hbyte
    dsimp only at hbyte
    rw [if_neg h₁, if_neg h₃] at hbyte
    exact hbyte

theorem setEnrollWidth_pace (blk : Template) (w : ℤ) : (setEnrollWidth blk w).byte 8 = blk.byte 8 := by
  unfold setEnrollWidth
  rw [byte_stampBlockCksum _ (by omega), byte_ofFn _ (by omega), byte_of_lt _ (by omega)]
  rfl

theorem enrollBlkOf_pace (cfg : ConsoleCfg) (w : ℤ) :
    (enrollBlkOf cfg w).byte 8 = cfg.consoleField := by
  rw [enrollBlkOf, setEnrollWidth_pace, byte_of_lt _ (by omega)]
  simp

theorem setEnrollWidth_enrollBlkOf (cfg : ConsoleCfg) (w w' : ℤ) :
    setEnrollWidth (enrollBlkOf cfg w) w' = enrollBlkOf cfg w' := setEnrollWidth_setEnrollWidth ..

/-- Every section marker of the channel map carries the pace code. -/
theorem genChanmap_pace (cfg : ConsoleCfg) {frame : Template} (h : frame ∈ genChanmap cfg) {s : ℕ}
    (hs : s < 8) (hmark : frame.byte (7 + 3 * s) = 0xfe) :
    frame.byte (7 + 3 * s + 1) = cfg.consoleField := by
  obtain ⟨f, -, rfl⟩ := List.mem_map.mp h
  have hbyte : ∀ r < 3, (chanmapFrame cfg f).byte (7 + 3 * s + r) = chanmapSlot cfg f s r := by
    intro r hr
    unfold chanmapFrame
    rw [byte_stampBlockCksum _ (by omega), byte_ofFn _ (by omega)]
    dsimp only
    rw [dif_neg (by omega), if_pos (by omega), show (7 + 3 * s + r - 7) / 3 = s by omega,
      show (7 + 3 * s + r - 7) % 3 = r by omega]
  have hslot := hbyte 0 (by omega)
  rw [Nat.add_zero, hmark, chanmapSlot, if_pos rfl] at hslot
  rw [hbyte 1 (by omega), chanmapSlot, if_neg (by omega), if_pos rfl, if_pos hslot.symm]

theorem sceneBody_pace (placeholder : SceneBody) (src : Mac) (cfg : ConsoleCfg) :
    (sceneBody placeholder src cfg).byte 0x14 = cfg.consoleField ∧
    (sceneBody placeholder src cfg).byte 0x15 = 0 := by
  unfold sceneBody SceneBody.byte
  rw [getD_ofFn _ (by omega), getD_ofFn _ (by omega)]
  exact ⟨rfl, rfl⟩

/-- The channel map depends on the pace code alone. -/
theorem genChanmap_congr {cfg cfg' : ConsoleCfg} (h : cfg'.consoleField = cfg.consoleField) :
    genChanmap cfg' = genChanmap cfg := by
  unfold genChanmap chanmapFrame chanmapSlot
  simp only [h]

/-! ## The entry actions -/

/-- The number of inputs the ENROLL map is drawn for. -/
def Master.enrollWidth (m : Master) : ℤ := if m.hasBox then m.alloc.width else enrollDefaultWidth

/-- The advertised blocks agree with the configuration and the box in force. -/
def AnnounceOk (m : Master) : Prop :=
  m.announceBlk = genCfea m.src m.cfg (if m.state = .established then 1 else 0) ∧
  (m.hasBox = true → m.cfg.outChannels = m.alloc.width.toUInt8) ∧
  m.enrollBlk = enrollBlkOf m.cfg m.enrollWidth ∧
  m.chanmap = genChanmap m.cfg ∧
  (m.scene.byte 0x14 = m.cfg.consoleField ∧ m.scene.byte 0x15 = 0)

/-- The fields `AnnounceOk` reads. -/
def Master.advert (m : Master) :
    MasterState × Mac × ConsoleCfg × List Template × SceneBody × GrantAlloc × Template × Template :=
  (m.state, m.src, m.cfg, m.chanmap, m.scene, m.alloc, m.announceBlk, m.enrollBlk)

theorem AnnounceOk.congr {m' : Master} (h : AnnounceOk m) (heq : m'.advert = m.advert) :
    AnnounceOk m' := by
  simp only [Master.advert, Prod.mk.injEq] at heq
  obtain ⟨h₁, h₂, h₃, h₄, h₅, h₆, h₇, h₈⟩ := heq
  unfold AnnounceOk Master.enrollWidth Master.hasBox
  rw [h₁, h₂, h₃, h₄, h₅, h₆, h₇, h₈]
  exact h

theorem AnnounceOk.enterProbing (h : AnnounceOk m) : AnnounceOk (enterProbing m) := by
  obtain ⟨-, hwidth, henroll, hmap, hscene⟩ := h
  unfold Libreac.enterProbing masterForgetBox
  dsimp only
  split_ifs
  · refine ⟨rfl, fun hb => ?_, ?_, ?_, hscene⟩
    · simp [Master.hasBox, GrantAlloc.none] at hb
    · exact (congrArg (setEnrollWidth · enrollDefaultWidth) henroll).trans
        (setEnrollWidth_enrollBlkOf ..)
    · exact hmap.trans (genChanmap_congr rfl)
  · exact ⟨rfl, hwidth, henroll, hmap, hscene⟩

theorem AnnounceOk.enterGranting (tx : HeadampTx) (h : AnnounceOk m) (src : Mac)
    (blk : Option Block) : AnnounceOk (enterGranting tx m src blk) := by
  obtain ⟨-, hwidth, henroll, hmap, hscene⟩ := h
  obtain ⟨rows, -, -, heq⟩ := enterGranting_eq tx m src blk
  have hpace : m.boxCfg.consoleField = m.cfg.consoleField := by
    unfold Master.boxCfg
    split_ifs <;> rfl
  rw [heq]
  refine ⟨rfl, fun hb => ?_, ?_, ?_, ?_⟩
  · have hb' : m.hasBox = true := hb
    simp [Master.boxCfg, hb']
  · refine henroll.trans ?_
    simp only [enrollBlkOf, hpace]
    rfl
  · exact hmap.trans (genChanmap_congr hpace).symm
  · simpa [hpace] using hscene

theorem AnnounceOk.enterEstablished (h : AnnounceOk m) : AnnounceOk (enterEstablished m) :=
  ⟨rfl, h.2⟩

theorem AnnounceOk.started (h : AnnounceOk m) : AnnounceOk m.started := by
  unfold Master.started
  split_ifs
  · exact h.enterProbing
  · exact h

theorem AnnounceOk.heard {m₁ : Master} (h : AnnounceOk m) (h₁ : Heard m m₁) : AnnounceOk m₁ := by
  obtain ⟨seen, lc, rfl⟩ := h₁
  exact h.started.congr rfl

theorem AnnounceOk.ticked {m₀ : Master} (h : AnnounceOk m) (h₀ : Ticked m m₀) : AnnounceOk m₀ := by
  obtain ⟨seen, tick, rfl⟩ := h₀
  exact h.started.congr rfl

theorem AnnounceOk.declared {a : GrantAlloc} {rows : List Template} (h : AnnounceOk m)
    (hsweep : IsSweep a rows) : AnnounceOk (m.declared a rows) := by
  obtain ⟨-, -, henroll, hmap, hscene⟩ := h
  have hb : (m.declared a rows).hasBox = true := hasBox_iff.mpr hsweep.length.2
  refine ⟨rfl, fun _ => rfl, ?_, hmap.trans (genChanmap_congr rfl), hscene⟩
  rw [Master.enrollWidth, if_pos hb]
  exact (congrArg (setEnrollWidth · (a.width : ℤ)) henroll).trans (setEnrollWidth_enrollBlkOf ..)

theorem AnnounceOk.sceneAccount (h : AnnounceOk m) (tx : HeadampTx) (emit : MasterEmit)
    (hs : m.state = .probing ∨ m.state = .established) : AnnounceOk (sceneAccount tx m emit) := by
  have hmove := sceneAccount_move tx emit hs
  generalize Libreac.sceneAccount tx m emit = m' at hmove
  cases hmove with
  | none => exact h
  | opened | closed | dropped => exact h.congr rfl
  | released =>
    refine AnnounceOk.enterGranting tx ?_ ..
    exact h.congr rfl
  | bye =>
    refine AnnounceOk.enterProbing ?_
    exact h.congr rfl

/-! ## Steps and runs -/

theorem AnnounceOk.step (h : AnnounceOk m) (i : HeadampTx × MasterInput) :
    AnnounceOk (masterStep t m i).1 := by
  obtain ⟨tx, i⟩ := i
  cases i with
  | rx ev src blk =>
    have hmove := masterRx_move tx m ev src blk
    simp only [masterStep]
    generalize (masterRx tx m ev src blk).1 = m', (masterRx tx m ev src blk).2 = r at hmove
    cases hmove with
    | refused => exact h
    | stay _ h₁ => exact h.heard h₁
    | held h₁ => exact (h.heard h₁).congr rfl
    | latch h₁ => exact (h.heard h₁).enterGranting tx ..
    | relatch h₁ =>
      refine AnnounceOk.enterGranting tx ?_ ..
      exact (h.heard h₁).congr rfl
    | accept _ h₁ => exact (h.heard h₁).enterEstablished
    | bye _ h₁ =>
      refine AnnounceOk.enterProbing ?_
      exact (h.heard h₁).congr rfl
  | next =>
    have hmove := masterNext_move t tx m
    simp only [masterStep]
    generalize (masterNext t tx m).1 = m', (masterNext t tx m).2 = s at hmove
    cases hmove with
    | hunt h₀ hs =>
      refine AnnounceOk.sceneAccount ?_ tx _ (.inl ?_)
      · exact (h.ticked h₀).congr rfl
      · exact hs
    | grant h₀ | wait h₀ => exact (h.ticked h₀).congr rfl
    | delivered h₀ =>
      refine AnnounceOk.enterEstablished ?_
      exact (h.ticked h₀).congr rfl
    | boxUnknown h₀ =>
      refine AnnounceOk.enterProbing ?_
      exact (h.ticked h₀).congr rfl
    | locked h₀ hs =>
      refine AnnounceOk.sceneAccount ?_ tx _ (.inr ?_)
      · exact (h.ticked h₀).congr rfl
      · exact hs
    | lost h₀ hs hc lc blk desc inflight hlc hleft =>
      rename_i m₀ c
      have hprobing : AnnounceOk (Libreac.enterProbing
          { m₀ with cad := c, linkCheck := lc, dropReason := .peerGone }) := by
        refine AnnounceOk.enterProbing ?_
        exact (h.ticked h₀).congr rfl
      exact hprobing.congr rfl
  | regrant => exact h.enterGranting tx ..
  | setHeadampSrc present =>
    obtain ⟨rows, -, -, heq⟩ := masterSetHeadampSrc_eq tx m present
    simp only [masterStep, heq]
    exact h.congr rfl
  | setBox inCh outCh base =>
    rcases masterSetBox_cases tx m inCh outCh base with heq | ⟨a, rows, heq, -, -, hsweep⟩
    · simp only [masterStep, heq]
      exact h
    · simp only [masterStep, heq]
      exact h.declared hsweep

theorem announceOk_init (t : MasterTunables) (placeholder : SceneBody) (src : Mac)
    (cfg : Option ConsoleCfg) (fps : ℤ) : AnnounceOk (masterInit t placeholder src cfg fps) := by
  obtain ⟨blk, desc, heq⟩ := masterInit_eq t placeholder src cfg fps
  rw [heq]
  exact ⟨rfl, by simp [Master.hasBox, GrantAlloc.none], rfl, rfl, sceneBody_pace ..⟩

theorem sweepOk_init (t : MasterTunables) (placeholder : SceneBody) (src : Mac)
    (cfg : Option ConsoleCfg) (fps : ℤ) : (masterInit t placeholder src cfg fps).SweepOk := by
  obtain ⟨blk, desc, heq⟩ := masterInit_eq t placeholder src cfg fps
  rw [heq]
  exact ⟨by simp [Master.hasBox, GrantAlloc.none], fun _ => rfl⟩

/-- Nothing is known about any box. -/
structure Forgotten (m : Master) : Prop where
  alloc : m.alloc = .none
  burst : m.grantBurst = []
  mac : m.boxMac = noMac
  held : m.joinHeld = false
  scenes : m.sceneComplete = 0
  width : m.cfg.outChannels = 8

theorem enterProbing_forgotten (h : m.state ≠ .idle) : Forgotten (enterProbing m) := by
  unfold enterProbing
  dsimp only
  rw [if_pos h]
  exact ⟨rfl, rfl, rfl, rfl, rfl, rfl⟩

/-- A step back to PROBING forgets the box. -/
theorem backward_forgotten (i : HeadampTx × MasterInput)
    (hpre : m.state = .granting ∨ m.state = .established)
    (hpost : (masterStep t m i).1.state = .probing) : Forgotten (masterStep t m i).1 := by
  have hidle : m.state ≠ .idle := by rcases hpre with h | h <;> simp [h]
  have hprobing : m.state ≠ .probing := by rcases hpre with h | h <;> simp [h]
  obtain ⟨tx, i⟩ := i
  cases i with
  | rx ev src blk =>
    have hmove := masterRx_move tx m ev src blk
    simp only [masterStep] at hpost ⊢
    generalize (masterRx tx m ev src blk).1 = m', (masterRx tx m ev src blk).2 = r at hmove hpost
    cases hmove with
    | refused => exact absurd hpost hprobing
    | stay _ h₁ => exact absurd ((h₁.state hidle).symm.trans hpost) hprobing
    | held h₁ hs => exact absurd ((h₁.state hidle).symm.trans hs) hprobing
    | latch | relatch => simp [enterGranting_state] at hpost
    | accept => cases hpost
    | bye _ h₁ =>
      refine enterProbing_forgotten ?_
      simpa [h₁.state hidle] using hidle
  | next =>
    have hmove := masterNext_move t tx m
    simp only [masterStep] at hpost ⊢
    generalize (masterNext t tx m).1 = m', (masterNext t tx m).2 = s at hmove hpost
    cases hmove with
    | hunt h₀ hs => exact absurd ((h₀.state hidle).symm.trans hs) hprobing
    | grant _ hs | wait _ hs => simp [hs] at hpost
    | delivered => cases hpost
    | boxUnknown h₀ =>
      refine enterProbing_forgotten ?_
      simpa [h₀.state hidle] using hidle
    | locked h₀ hs hc lc blk desc hlc hleft =>
      rename_i m₀ c
      have hacc := sceneAccount_move tx (m := { m₀ with
        cad := c, linkCheck := lc, sceneBlk := blk, fillerDesc := desc }) s.emit (.inr hs)
      generalize sceneAccount tx { m₀ with
        cad := c, linkCheck := lc, sceneBlk := blk, fillerDesc := desc } s.emit = m' at hacc hpost
      cases hacc with
      | none | opened | closed | dropped => exact absurd (hs.symm.trans hpost) (by decide)
      | released => simp [enterGranting_state] at hpost
      | bye =>
        refine enterProbing_forgotten ?_
        simp [Master.completed, hs]
    | @lost m₀ h₀ hs c s hc lc blk desc inflight hlc hleft =>
      obtain ⟨h₁, h₂, h₃, h₄, h₅, h₆⟩ := enterProbing_forgotten
        (m := { m₀ with cad := c, linkCheck := lc, dropReason := .peerGone }) (by simp [hs])
      exact ⟨h₁, h₂, h₃, h₄, h₅, h₆⟩
  | regrant => simp [masterStep, masterRegrant, enterGranting_state] at hpost
  | setHeadampSrc present =>
    obtain ⟨rows, -, -, heq⟩ := masterSetHeadampSrc_eq tx m present
    simp only [masterStep, heq] at hpost
    exact absurd hpost hprobing
  | setBox inCh outCh base =>
    rcases masterSetBox_cases tx m inCh outCh base with heq | ⟨a, rows, heq, -⟩
    · simp only [masterStep, heq] at hpost
      exact absurd hpost hprobing
    · simp only [masterStep, heq] at hpost
      exact absurd hpost hprobing

/-- The blocks that carry the pace code: the announce, the ENROLL map, every section marker of the
channel map, and the revision of the scene. -/
def PaceCarried (m : Master) : Prop :=
  m.announceBlk.byte 19 = m.cfg.consoleField ∧ m.enrollBlk.byte 8 = m.cfg.consoleField ∧
  (m.chanmap.length = chanmapRing ∧ ∀ frame ∈ m.chanmap, ∀ s < 8,
    frame.byte (7 + 3 * s) = 0xfe → frame.byte (7 + 3 * s + 1) = m.cfg.consoleField) ∧
  (m.scene.byte 0x14 = m.cfg.consoleField ∧ m.scene.byte 0x15 = 0)

theorem AnnounceOk.paceCarried (h : AnnounceOk m) : PaceCarried m := by
  obtain ⟨hann, -, henroll, hmap, hscene⟩ := h
  refine ⟨?_, ?_, ⟨?_, fun frame hf s hs hmark => ?_⟩, hscene⟩
  · rw [hann, genCfea_pace]
  · rw [henroll, enrollBlkOf_pace]
  · rw [hmap, genChanmap, List.length_map, List.length_range]
  · exact genChanmap_pace m.cfg (hmap ▸ hf) hs hmark

/-- What the master advertises is true, in every state it can reach. -/
theorem announce_truthful (t : MasterTunables) (placeholder : SceneBody) (src : Mac)
    (cfg : Option ConsoleCfg) (fps : ℤ) (is : List (HeadampTx × MasterInput)) :
    let m := (masterMachine t).run (masterInit t placeholder src cfg fps) is
    (m.announceBlk = genCfea src m.cfg (if m.state = .established then 1 else 0) ∧
      m.announceBlk.cksumOk) ∧
    (m.hasBox = true → m.cfg.outChannels.toNat = m.alloc.width) ∧
    m.enrollBlk = enrollBlkOf m.cfg (if m.hasBox then m.alloc.width else enrollDefaultWidth) ∧
    (0 < m.grantBurst.length ↔ m.hasBox = true) ∧
    PaceCarried m ∧
    (∀ log e, (masterMachine t).StepOf (masterInit t placeholder src cfg fps) is log e →
      e.pre.state = .granting ∨ e.pre.state = .established → e.post.state = .probing →
      e.post.cfg.outChannels = consoleCfgIdle.outChannels) := by
  obtain ⟨⟨hann, hwidth, henroll, hmap, hscene⟩, hsweep, hsrc⟩ := (masterMachine t).run_invariant
    (I := fun m => AnnounceOk m ∧ m.SweepOk ∧ m.src = src) (L := fun _ _ => True)
    ⟨announceOk_init t placeholder src cfg fps, sweepOk_init t placeholder src cfg fps,
      by obtain ⟨blk, desc, h⟩ := masterInit_eq t placeholder src cfg fps; rw [h]⟩
    (fun m i h _ => ⟨h.1.step i, (Continues.step t m i).sweep h.2.1,
      (Continues.step t m i).src.trans h.2.2⟩) is (fun _ _ _ => trivial)
  refine ⟨⟨?_, ?_⟩, fun hb => ?_, henroll, ⟨fun hlen => ?_, fun hb => ?_⟩,
    AnnounceOk.paceCarried ⟨hann, hwidth, henroll, hmap, hscene⟩, ?_⟩
  · rw [hann, hsrc]
  · rw [hann]
    exact genCfea_cksumOk ..
  · rw [hwidth hb, width_toUInt8]
  · by_contra hb
    rw [hsweep.2 (by simpa using hb)] at hlen
    simp at hlen
  · rw [(hsweep.1 hb).length.1, grantSweepLen]
    omega
  · rintro log e ⟨post, he⟩ hpre hpost
    obtain ⟨is₁, i, is₂, -, -, rfl⟩ := Reactive.Machine.trace_split _ he
    exact (backward_forgotten i hpre hpost).width

end Libreac
