import Libreac.Proofs.DeskProofs

/-!
# Proofs: head-amp records and the table behind them

What a control block says to a head-amp (`headampRecord`), which of the master's blocks say anything
at all, and what the scheduler of the overlay does to the table in one call. A cell is settled by a
record of its own only: every operation is described cell by cell.
-/

namespace Libreac

variable {t t' : HeadampTx} {m : Master} {p : Pacer}

/-! ## Records on the wire -/

/-- `REAC_HEADAMP_PHANTOM`. -/
def headampPhantom : ℕ := 0

/-- The head-amp record a control block carries: opcode `04 03`, the address `12 12 01 01`, then the
channel, the parameter and the value. -/
def headampRecord (t : Template) : Option (ℕ × ℕ × UInt8) :=
  if t.byte 0 = 0xcd ∧ t.byte 1 = 0xea ∧ t.byte 2 = 0x04 ∧ t.byte 3 = 0x03 ∧ t.byte 16 = 0x12 ∧
      t.byte 17 = 0x12 ∧ t.byte 18 = 0x01 ∧ t.byte 19 = 0x01 then
    some ((t.byte 20).toNat, (t.byte 21).toNat, t.byte 22)
  else none

theorem headampRecord_congr {s t : Template} (h : ∀ i < 23, s.byte i = t.byte i) :
    headampRecord s = headampRecord t := by
  unfold headampRecord
  rw [h 0 (by omega), h 1 (by omega), h 2 (by omega), h 3 (by omega), h 16 (by omega),
    h 17 (by omega), h 18 (by omega), h 19 (by omega), h 20 (by omega), h 21 (by omega),
    h 22 (by omega)]

@[simp] theorem headampRecord_stampBlockCksum (t : Template) :
    headampRecord (stampBlockCksum t) = headampRecord t := by
  refine headampRecord_congr ?_
  intro i hi
  exact byte_stampBlockCksum t (by omega)

/-- Only link 4 carries head-amp records. -/
theorem headampRecord_of_link {t : Template} (h : t.byte 2 ≠ 0x04) : headampRecord t = none := by
  unfold headampRecord
  rw [if_neg]
  rintro ⟨-, -, hlink, -⟩
  exact h hlink

theorem headampRecord_of_type {t : Template} (h : t.byte 0 ≠ 0xcd) : headampRecord t = none := by
  unfold headampRecord
  rw [if_neg]
  rintro ⟨htype, -⟩
  exact h htype

theorem headampRecord_tmplHeadamp {ch param : ℕ} (hch : ch < 256) (hparam : param < 256)
    (value : UInt8) : headampRecord (stampBlockCksum
      (recordCksumStamp (tmplHeadamp ch.toUInt8 param.toUInt8 value))) = some (ch, param, value) := by
  rw [headampRecord_congr fun i hi => byte_recordStamped _ hi]
  unfold headampRecord
  simp only [byte_of_lt _ (show 0 < 34 by omega), byte_of_lt _ (show 1 < 34 by omega),
    byte_of_lt _ (show 2 < 34 by omega), byte_of_lt _ (show 3 < 34 by omega),
    byte_of_lt _ (show 16 < 34 by omega), byte_of_lt _ (show 17 < 34 by omega),
    byte_of_lt _ (show 18 < 34 by omega), byte_of_lt _ (show 19 < 34 by omega),
    byte_of_lt _ (show 20 < 34 by omega), byte_of_lt _ (show 21 < 34 by omega),
    byte_of_lt _ (show 22 < 34 by omega)]
  simp [tmplHeadamp, Nat.mod_eq_of_lt hch, Nat.mod_eq_of_lt hparam]

/-- A legal record is stamped, and reads back as what was asked for. -/
theorem stampHeadamp_record {ch param : ℕ} {value : UInt8} (hch : ch < 256)
    (hparam : param < headampNparams) (hok : headampArgsOk param value = true) :
    ∃ blk, stampHeadamp ch param value = some blk ∧
      headampRecord blk = some (ch, param, value) := by
  refine ⟨_, if_pos hok, headampRecord_tmplHeadamp hch ?_ value⟩
  unfold headampNparams at hparam
  omega

/-! ## The rows of a sweep -/

theorem headampRecord_groupaRow (tx : Option HeadampTx) {ch param : ℕ} (hch : ch < 256)
    (hparam : param < 256) :
    headampRecord (groupaRow tx ch param) = some (ch, param, headampTxEffective tx ch param) :=
  headampRecord_tmplHeadamp hch hparam _

/-- A row of the sweep that is a record carries the value of its cell in the table the sweep was
built from, and the cell is one of the allocation. -/
theorem sweep_record {a : GrantAlloc} {tx : Option HeadampTx} {rows : List Template}
    (h : grantBuildSweep a tx = some rows) {row : Template} (hrow : row ∈ rows) {ch param : ℕ}
    {value : UInt8} (hrec : headampRecord row = some (ch, param, value)) :
    value = headampTxEffective tx ch param ∧ a.base ≤ ch ∧ ch < a.base + a.width := by
  have hpos : 0 < a.width := (IsSweep.length ⟨tx, h⟩).2
  have hfits := a.fits.2
  unfold headampCeiling at hfits
  have hchannel : ∀ c < a.width, row ∈ channelRows tx (a.base + c) →
      value = headampTxEffective tx ch param ∧ a.base ≤ ch ∧ ch < a.base + a.width := by
    intro c hc hmem
    have hcell : ∀ p < 256, headampRecord (groupaRow tx (a.base + c) p)
        = some (a.base + c, p, headampTxEffective tx (a.base + c) p) := by
      intro p hp
      exact headampRecord_groupaRow tx (by omega) hp
    simp only [channelRows, List.mem_cons, List.not_mem_nil, or_false] at hmem
    obtain ⟨p, hp, rfl⟩ : ∃ p < 256, row = groupaRow tx (a.base + c) p := by
      rcases hmem with h | h | h
      · exact ⟨0, by omega, h⟩
      · exact ⟨1, by omega, h⟩
      · exact ⟨2, by omega, h⟩
    rw [hcell p hp] at hrec
    cases hrec
    exact ⟨rfl, by omega, by omega⟩
  have hfixed : headampRecord grantHeadAck = none ∧ headampRecord grantHeadMark = none ∧
      ∀ r ∈ grantGroupb, headampRecord r = none := by decide
  rw [grantBuildSweep_eq hpos] at h
  obtain rfl := Option.some.inj h
  simp only [List.mem_append, List.mem_singleton, List.mem_flatMap, List.mem_range'_1] at hrow
  rcases hrow with (((rfl | hfirst) | rfl) | hgroupb) | ⟨c, hc, hmem⟩
  · rw [hfixed.1] at hrec
    cases hrec
  · exact hchannel 0 hpos (by simpa using hfirst)
  · rw [hfixed.2.1] at hrec
    cases hrec
  · rw [hfixed.2.2 row hgroupb] at hrec
    cases hrec
  · exact hchannel c (by omega) hmem

/-! ## The other blocks of the master -/

/-- The scene step on hand is one of link 1, or none has been built yet. -/
def Master.SceneBlkOk (m : Master) : Prop := m.sceneBlk.byte 2 ≠ 0x04

theorem buildSceneStep_link {body : SceneBody} {step : ℕ} {blk : Template}
    (h : buildSceneStep body step = some blk) : blk.byte 2 = 0x01 := by
  have hlink : ∀ seg len payload, (sceneBlock seg len payload).byte 2 = 0x01 := by
    intro seg len payload
    unfold sceneBlock
    rw [byte_stampBlockCksum _ (by omega), byte_ofFn _ (by omega)]
    rfl
  unfold buildSceneStep at h
  split_ifs at h
  · rw [← Option.some.inj h]
    exact hlink ..
  · rw [← Option.some.inj h]
    exact hlink ..
  · rw [← Option.some.inj h]
    exact hlink ..

theorem scenePrepare_blk (h : m.SceneBlkOk) : (scenePrepare m).SceneBlkOk := by
  unfold scenePrepare
  cases hblk : buildSceneStep m.scene m.cad.sceneStep with
  | none => exact h
  | some blk =>
    unfold Master.SceneBlkOk
    dsimp only
    rw [buildSceneStep_link hblk]
    decide

theorem applyEdge_sceneBlk (tx : HeadampTx) (m : Master) (e : MasterEdge) (src : Mac)
    (blk : Option Block) : (applyEdge tx m e src blk).sceneBlk = m.sceneBlk := by
  have hprobing : ∀ m : Master, (enterProbing m).sceneBlk = m.sceneBlk := by
    intro m
    unfold enterProbing masterForgetBox
    dsimp only
    split_ifs <;> rfl
  have hgranting : ∀ m : Master, (enterGranting tx m src blk).sceneBlk = m.sceneBlk := by
    intro m
    obtain ⟨rows, -, -, heq⟩ := enterGranting_eq tx m src blk
    rw [heq]
  unfold applyEdge
  dsimp only
  split_ifs
  · rfl
  · rfl
  · cases e.next with
    | idle => rfl
    | probing => exact hprobing _
    | granting => exact hgranting _
    | established => rfl
  · cases e.next with
    | idle => rfl
    | probing => exact hprobing _
    | granting => exact hgranting _
    | established => rfl

theorem sceneAccount_sceneBlk (tx : HeadampTx) (m : Master) (emit : MasterEmit) :
    (sceneAccount tx m emit).sceneBlk = m.sceneBlk := by
  unfold sceneAccount releaseHeldJoin
  split_ifs
  · rfl
  · dsimp only
    split_ifs
    · exact applyEdge_sceneBlk ..
    · rfl
  · rfl

theorem slotByState_sceneBlk (t : MasterTunables) (tx : HeadampTx) (m : Master) :
    (slotByState t tx m).1.sceneBlk = m.sceneBlk := by
  unfold slotByState
  cases m.state with
  | idle | probing => rfl
  | granting =>
    unfold slotGranting
    dsimp only
    split_ifs
    · exact applyEdge_sceneBlk ..
    · rfl
    · exact applyEdge_sceneBlk ..
    · rfl
  | established =>
    unfold slotEstablished
    dsimp only
    split_ifs
    · exact applyEdge_sceneBlk ..
    · rfl

/-- No call of the owner puts anything but a scene step there. -/
theorem Master.SceneBlkOk.step (t : MasterTunables) (h : m.SceneBlkOk) (i : HeadampTx × MasterInput) :
    (masterStep t m i).1.SceneBlkOk := by
  obtain ⟨tx, i⟩ := i
  unfold Master.SceneBlkOk at h ⊢
  have hpromote : ∀ m : Master, (promoteIdle tx m).sceneBlk = m.sceneBlk := by
    intro m
    unfold promoteIdle
    split_ifs
    · exact applyEdge_sceneBlk ..
    · rfl
  cases i with
  | rx ev src blk =>
    simp only [masterStep]
    unfold masterRx
    split_ifs
    · exact h
    · have hacc : (rxAccount tx m ev).sceneBlk = m.sceneBlk := by
        unfold rxAccount
        dsimp only
        split_ifs <;> exact hpromote _
      dsimp only
      split_ifs
      · rw [← hacc] at h
        exact h
      · rw [applyEdge_sceneBlk, hacc]
        exact h
  | next =>
    simp only [masterStep]
    unfold masterNext
    dsimp only
    rw [sceneAccount_sceneBlk]
    have hslot : (slotByState t tx
        (presenceDecay (promoteIdle tx { m with counter := m.counter + 1 }))).1.sceneBlk
        = m.sceneBlk := by
      rw [slotByState_sceneBlk]
      unfold presenceDecay
      split_ifs <;> exact hpromote _
    rw [← hslot] at h
    split_ifs
    · exact scenePrepare_blk h
    · exact h
  | regrant =>
    obtain ⟨rows, -, -, heq⟩ := enterGranting_eq tx m m.boxMac none
    simp only [masterStep, masterRegrant]
    rw [heq]
    exact h
  | setHeadampSrc present =>
    obtain ⟨rows, -, -, heq⟩ := masterSetHeadampSrc_eq tx m present
    simp only [masterStep]
    rw [heq]
    exact h
  | setBox inCh outCh base =>
    simp only [masterStep]
    rcases masterSetBox_cases tx m inCh outCh base with heq | ⟨a, rows, heq, -⟩
    · rw [heq]
      exact h
    · rw [heq]
      exact h

theorem setEnrollWidth_link (blk : Template) (w : ℤ) :
    (setEnrollWidth blk w).byte 2 = blk.byte 2 := by
  unfold setEnrollWidth
  rw [byte_stampBlockCksum _ (by omega), byte_ofFn _ (by omega), byte_of_lt _ (by omega)]
  rfl

/-- A slot that is not a grant says nothing to a head-amp of its own accord. -/
theorem masterStamp_record (ha : AnnounceOk m) (hs : m.SceneBlkOk) {s : Slot}
    (hne : s.emit ≠ .grant) : (masterStamp m s).bind headampRecord = none := by
  obtain ⟨hannounce, -, henroll, hchanmap, -⟩ := ha
  unfold masterStamp
  cases hemit : s.emit with
  | filler =>
    rw [Option.bind_some, headampRecord_of_type]
    unfold fillerBlock
    rw [byte_ofFn _ (by omega)]
    simp
  | sceneHead | sceneChunk | sceneTail =>
    rw [Option.bind_some, headampRecord_stampBlockCksum, headampRecord_of_link hs]
  | grant => exact absurd hemit hne
  | identityPoll =>
    dsimp only
    split_ifs
    · rfl
    · have hfixed : ∀ r ∈ grantGroupb, headampRecord r = none := by decide
      unfold identityPollBlock
      cases hrow : grantGroupb[s.idx.toNat]? with
      | none => rfl
      | some row =>
        rw [Option.map_some, Option.bind_some, headampRecord_stampBlockCksum,
          hfixed row (List.mem_of_getElem? hrow)]
  | enroll =>
    rw [Option.bind_some, headampRecord_stampBlockCksum, headampRecord_of_link]
    rw [henroll, enrollBlkOf, setEnrollWidth_link, byte_of_lt _ (by omega)]
    simp [enrollTmpl]
  | chanmap =>
    dsimp only
    split_ifs
    · rfl
    · rw [hchanmap]
      cases hrow : (genChanmap m.cfg)[s.idx.toNat]? with
      | none => rfl
      | some row =>
        rw [Option.map_some, Option.bind_some, headampRecord_stampBlockCksum, headampRecord_of_link]
        obtain ⟨f, -, rfl⟩ := List.mem_map.mp (List.mem_of_getElem? hrow)
        unfold chanmapFrame
        rw [byte_stampBlockCksum _ (by omega), byte_ofFn _ (by omega)]
        simp
  | announce =>
    rw [Option.bind_some, headampRecord_stampBlockCksum, headampRecord_of_type]
    rw [hannounce]
    unfold genCfea
    rw [byte_stampBlockCksum _ (by omega), byte_ofFn _ (by omega)]
    simp

/-! ## The table -/

theorem headampTxEffective_congr {t t' : HeadampTx} {ch param : ℕ}
    (hv : t'.value ch param = t.value ch param) (hs : t'.set ch param = t.set ch param) :
    headampTxEffective (some t') ch param = headampTxEffective (some t) ch param := by
  unfold headampTxEffective
  simp only [hv, hs]

theorem headampTxEffective_set {ch param : ℕ} (hch : ch < headampMaxCh)
    (hparam : param < headampNparams) (hset : t.set ch param = true) :
    headampTxEffective (some t) ch param = t.value ch param := by
  unfold headampTxEffective
  rw [if_neg (by omega)]
  exact if_pos ⟨hch, hset⟩

theorem setCell_of_ne {α : Type} (cells : ℕ → ℕ → α) {ch param c p : ℕ} (a : α)
    (h : ¬ (c = ch ∧ p = param)) : setCell cells ch param a c p = cells c p := if_neg h

theorem setCell_self {α : Type} (cells : ℕ → ℕ → α) (ch param : ℕ) (a : α) :
    setCell cells ch param a ch param = a := if_pos ⟨rfl, rfl⟩

/-- What holds of the table in every pacer. The re-assert is off, so every replay is a complete
scene. -/
structure TableOk (t : HeadampTx) : Prop where
  dirty : ∀ c p, t.dirty c p = true →
    c < headampMaxCh ∧ p < headampNparams ∧ t.set c p = true ∧ t.active = true
  period : t.resweepPeriod = 0
  complete : t.replaySetOnly = false
  cursor : t.replayWidth ≠ 0 → t.replayIdx < t.replayWidth * headampNparams ∧
    t.replayBase + t.replayWidth ≤ headampMaxCh

/-- `t'` is `t` with some cells set: each cell is marked for the wire, or is as it was. -/
structure CellsSet (t t' : HeadampTx) : Prop where
  cell : ∀ c p, t'.dirty c p = true ∨ t'.dirty c p = t.dirty c p ∧
    headampTxEffective (some t') c p = headampTxEffective (some t) c p
  base : t'.replayBase = t.replayBase
  width : t'.replayWidth = t.replayWidth
  idx : t'.replayIdx = t.replayIdx
  wait : t'.replayWait = t.replayWait

theorem CellsSet.refl (t : HeadampTx) : CellsSet t t :=
  ⟨fun _ _ => .inr ⟨rfl, rfl⟩, rfl, rfl, rfl, rfl⟩

theorem CellsSet.trans {t₁ t₂ t₃ : HeadampTx} (h : CellsSet t₁ t₂) (h' : CellsSet t₂ t₃) :
    CellsSet t₁ t₃ := by
  refine ⟨?_, h'.base.trans h.base, h'.width.trans h.width, h'.idx.trans h.idx,
    h'.wait.trans h.wait⟩
  intro c p
  rcases h'.cell c p with hdirty | ⟨hsame, heff⟩
  · exact .inl hdirty
  · rw [hsame, heff]
    exact h.cell c p

theorem paramValueOk_lt {param : ℕ} {value : UInt8} (h : paramValueOk param value = true) :
    param < headampNparams := by
  unfold headampNparams
  by_contra hge
  obtain ⟨k, rfl⟩ : ∃ k, param = k + 3 := ⟨param - 3, by omega⟩
  cases h

theorem headampTxSet_spec {t' : HeadampTx} {ch param : ℕ} {value : UInt8} (ok : TableOk t)
    (h : headampTxSet t ch param value = some t') : TableOk t' ∧ CellsSet t t' := by
  unfold headampTxSet at h
  split_ifs at h with hlegal
  obtain rfl := Option.some.inj h
  have hparam := paramValueOk_lt hlegal.2
  refine ⟨⟨?_, ok.period, ok.complete, ok.cursor⟩, ?_, rfl, rfl, rfl, rfl⟩
  · intro c p hd
    dsimp only at hd ⊢
    by_cases hcell : c = ch ∧ p = param
    · obtain ⟨rfl, rfl⟩ := hcell
      exact ⟨hlegal.1, hparam, setCell_self .., rfl⟩
    · rw [setCell_of_ne _ _ hcell] at hd ⊢
      obtain ⟨hc, hp, hset, -⟩ := ok.dirty c p hd
      exact ⟨hc, hp, hset, rfl⟩
  · intro c p
    by_cases hcell : c = ch ∧ p = param
    · obtain ⟨rfl, rfl⟩ := hcell
      exact .inl (setCell_self ..)
    · exact .inr ⟨setCell_of_ne _ _ hcell,
        headampTxEffective_congr (setCell_of_ne _ _ hcell) (setCell_of_ne _ _ hcell)⟩

/-- A legal command takes, and the cell then has its value. -/
theorem headampTxSet_legal (t : HeadampTx) {ch param : ℕ} {value : UInt8} (hch : ch < headampMaxCh)
    (hok : paramValueOk param value = true) : ∃ t', headampTxSet t ch param value = some t' ∧
      headampTxEffective (some t') ch param = value := by
  refine ⟨_, dif_pos ⟨hch, hok⟩, ?_⟩
  rw [headampTxEffective_set hch (paramValueOk_lt hok) (setCell_self ..)]
  exact setCell_self ..

/-- A run of commands, bad ones skipped. -/
theorem foldl_headampTxSet (ok : TableOk t) (cmds : List (ℕ × ℕ × UInt8)) :
    TableOk (cmds.foldl (fun t c => (headampTxSet t c.1 c.2.1 c.2.2).getD t) t) ∧
      CellsSet t (cmds.foldl (fun t c => (headampTxSet t c.1 c.2.1 c.2.2).getD t) t) := by
  induction cmds generalizing t with
  | nil => exact ⟨ok, .refl t⟩
  | cons cmd cmds ih =>
    rw [List.foldl_cons]
    cases hset : headampTxSet t cmd.1 cmd.2.1 cmd.2.2 with
    | none => exact ih ok
    | some t' =>
      obtain ⟨ok', hcells⟩ := headampTxSet_spec ok hset
      obtain ⟨ok'', hcells'⟩ := ih ok'
      exact ⟨ok'', hcells.trans hcells'⟩

theorem tableOk_init : TableOk headampTxInit := by
  refine ⟨?_, rfl, rfl, ?_⟩
  · intro c p h
    cases h
  · intro h
    exact absurd rfl h

theorem TableOk.setResweep (ok : TableOk t) (fps : ℤ) :
    TableOk (headampTxSetResweep t (UInt32.ofInt fps * headampResweepSeconds)) := by
  refine ⟨ok.dirty, ?_, ok.complete, ok.cursor⟩
  unfold headampTxSetResweep headampResweepSeconds
  simp

theorem tableOk_open (fps : ℤ) (headamps : List (ℕ × ℕ × UInt8)) :
    TableOk (headampOpen fps headamps) := (foldl_headampTxSet tableOk_init headamps).1.setResweep fps

/-- The scene is armed over a whole allocation. -/
theorem headampTxArmScene_alloc (t : HeadampTx) {a : GrantAlloc} (h : 0 < a.width) :
    headampTxArmScene t a.base a.width = { t with
      replayBase := a.base, replayWidth := a.width, replayIdx := 0, replayWait := 0
      replaySetOnly := false, sceneBase := a.base, sceneWidth := a.width, resweepWait := 0 } := by
  have hfits := a.fits.2
  unfold headampTxArmScene headampMaxCh
  unfold headampCeiling at hfits
  rw [if_neg (by omega)]
  dsimp only
  rw [if_neg (by omega)]

theorem TableOk.armScene (ok : TableOk t) (a : GrantAlloc) :
    TableOk (headampTxArmScene t a.base a.width) := by
  rcases Nat.eq_zero_or_pos a.width with hzero | hpos
  · unfold headampTxArmScene
    rw [if_pos (.inl hzero)]
    exact ok
  · rw [headampTxArmScene_alloc t hpos]
    refine ⟨ok.dirty, ok.period, rfl, fun _ => ⟨?_, a.fits.2⟩⟩
    unfold headampNparams
    dsimp only
    omega

theorem headampTxArmScene_dirty (t : HeadampTx) (base width : ℕ) :
    (headampTxArmScene t base width).dirty = t.dirty := by
  unfold headampTxArmScene
  split_ifs
  · rfl
  · rfl
  · rfl

theorem headampTxArmScene_effective (t : HeadampTx) (base width ch param : ℕ) :
    headampTxEffective (some (headampTxArmScene t base width)) ch param
      = headampTxEffective (some t) ch param := by
  unfold headampTxArmScene
  split_ifs
  · rfl
  · exact headampTxEffective_congr rfl rfl
  · exact headampTxEffective_congr rfl rfl

/-! ## The scheduler -/

/-- The cell the replay comes to next. -/
def HeadampTx.replayCell (t : HeadampTx) : ℕ × ℕ :=
  (t.replayBase + t.replayIdx / headampNparams, t.replayIdx % headampNparams)

/-- The record of a cell. -/
def HeadampTx.record (t : HeadampTx) (cell : ℕ × ℕ) : ℕ × ℕ × UInt8 :=
  (cell.1, cell.2, headampTxEffective (some t) cell.1 cell.2)

/-- The outcomes of one call of `reac_headamp_tx_next`. -/
inductive HeadampMove (t : HeadampTx) : HeadampTx → Option (ℕ × ℕ × UInt8) → Prop where
  /-- Nothing to send. -/
  | silent (hd : ∀ c p, t.dirty c p = false) (hw : t.replayWidth = 0) : HeadampMove t t none
  /-- A changed cell goes first. -/
  | edge {c p : ℕ} (hd : t.dirty c p = true) :
      HeadampMove t { t with dirty := setCell t.dirty c p false, resweepWait := 0 }
        (some (t.record (c, p)))
  /-- The replay waits for its stride. -/
  | wait (hd : ∀ c p, t.dirty c p = false) (hw : t.replayWidth ≠ 0) (h : 0 < t.replayWait) :
      HeadampMove t { t with replayWait := t.replayWait - 1 } none
  /-- A cell of the replay. -/
  | cell (hd : ∀ c p, t.dirty c p = false) (hw : t.replayWidth ≠ 0) (h : t.replayWait = 0)
      (hlt : t.replayIdx + 1 < t.replayWidth * headampNparams) :
      HeadampMove t { t with replayIdx := t.replayIdx + 1, replayWait := 11, resweepWait := 0 }
        (some (t.record t.replayCell))
  /-- Its last cell. -/
  | last (hd : ∀ c p, t.dirty c p = false) (hw : t.replayWidth ≠ 0) (h : t.replayWait = 0)
      (heq : t.replayIdx + 1 = t.replayWidth * headampNparams) :
      HeadampMove t { t with replayIdx := t.replayIdx + 1, replayWidth := 0, resweepWait := 0 }
        (some (t.record t.replayCell))

theorem headampTxNext_move (ok : TableOk t) :
    HeadampMove t (headampTxNext t).1 (headampTxNext t).2 := by
  have hquiet : t.active = false → ∀ c p, t.dirty c p = false := by
    intro hactive c p
    cases hd : t.dirty c p with
    | false => rfl
    | true =>
      rw [(ok.dirty c p hd).2.2.2] at hactive
      cases hactive
  have hcarries : t.replayCarries = fun _ => true := by
    funext idx
    simp [HeadampTx.replayCarries, ok.complete]
  unfold headampTxNext
  by_cases hidle : t.active = false ∧ t.replayWidth = 0
  · rw [if_pos hidle]
    exact .silent (hquiet hidle.1) hidle.2
  rw [if_neg hidle]
  cases hfind : (List.range (headampMaxCh * headampNparams)).find? fun idx =>
      t.dirty (idx / headampNparams) (idx % headampNparams) with
  | some idx =>
    have hd := List.find?_some hfind
    dsimp only at hd ⊢
    obtain ⟨hc, hp, hset, -⟩ := ok.dirty _ _ hd
    rw [← headampTxEffective_set hc hp hset]
    exact .edge hd
  | none =>
    have hd : ∀ c p, t.dirty c p = false := by
      intro c p
      cases hcell : t.dirty c p with
      | false => rfl
      | true =>
        obtain ⟨hc, hp, -⟩ := ok.dirty c p hcell
        have hnone := List.find?_eq_none.mp hfind (c * headampNparams + p)
        unfold headampMaxCh at hc hnone
        unfold headampNparams at hp hnone
        have hdiv : (c * 3 + p) / 3 = c := by omega
        have hmod : (c * 3 + p) % 3 = p := by omega
        rw [hdiv, hmod, hcell] at hnone
        exact absurd rfl (hnone (List.mem_range.mpr (by omega)))
    dsimp only
    by_cases hw : t.replayWidth = 0
    · rw [if_pos hw]
      have hresweep : t.resweep = t := by
        unfold HeadampTx.resweep
        rw [if_neg]
        rintro ⟨hne, -⟩
        exact hne ok.period
      rw [hresweep]
      exact .silent hd hw
    rw [if_neg hw]
    by_cases hwait : 0 < t.replayWait
    · rw [if_pos hwait]
      exact .wait hd hw hwait
    rw [if_neg hwait]
    have hlt := (ok.cursor hw).1
    have hfirst : (List.range' t.replayIdx (t.replayWidth * headampNparams - t.replayIdx)).find?
        t.replayCarries = some t.replayIdx := by
      obtain ⟨k, hk⟩ : ∃ k, t.replayWidth * headampNparams - t.replayIdx = k + 1 :=
        ⟨t.replayWidth * headampNparams - t.replayIdx - 1, by omega⟩
      rw [hk, List.range'_succ, hcarries]
      rfl
    rw [hfirst]
    dsimp only
    by_cases hlast : t.replayWidth * headampNparams ≤ t.replayIdx + 1
    · rw [if_pos hlast]
      exact .last hd hw (by omega) (by omega)
    · rw [if_neg hlast]
      exact .cell hd hw (by omega) (by omega)

/-- What is sent is a cell of the table, with the value it has there. -/
theorem HeadampMove.legal {rec : Option (ℕ × ℕ × UInt8)} (h : HeadampMove t t' rec)
    (ok : TableOk t) {c p : ℕ} {value : UInt8} (hrec : rec = some (c, p, value)) :
    c < headampMaxCh ∧ p < headampNparams ∧ value = headampTxEffective (some t) c p := by
  have hreplay : t.replayWidth ≠ 0 → t.replayCell.1 < headampMaxCh ∧
      t.replayCell.2 < headampNparams := by
    intro hw
    obtain ⟨hlt, hfits⟩ := ok.cursor hw
    unfold HeadampTx.replayCell headampNparams at *
    dsimp only
    omega
  cases h with
  | silent | wait => cases hrec
  | edge hd =>
    cases hrec
    obtain ⟨hc, hp, -⟩ := ok.dirty _ _ hd
    exact ⟨hc, hp, rfl⟩
  | cell _ hw | last _ hw =>
    cases hrec
    obtain ⟨hc, hp⟩ := hreplay hw
    exact ⟨hc, hp, rfl⟩

theorem HeadampMove.effective {rec : Option (ℕ × ℕ × UInt8)} (h : HeadampMove t t' rec) (c p : ℕ) :
    headampTxEffective (some t') c p = headampTxEffective (some t) c p := by
  cases h with
  | silent => rfl
  | edge | wait | cell | last => exact headampTxEffective_congr rfl rfl

theorem HeadampMove.clean {rec : Option (ℕ × ℕ × UInt8)} (h : HeadampMove t t' rec)
    (hclean : ∀ c p, t.dirty c p = false) : ∀ c p, t'.dirty c p = false := by
  cases h with
  | silent | wait | cell | last => exact hclean
  | edge hd =>
    rw [hclean] at hd
    cases hd

theorem HeadampMove.tableOk {rec : Option (ℕ × ℕ × UInt8)} (h : HeadampMove t t' rec)
    (ok : TableOk t) : TableOk t' := by
  cases h with
  | silent => exact ok
  | edge hd =>
    refine ⟨?_, ok.period, ok.complete, ok.cursor⟩
    intro c p hd'
    dsimp only [setCell] at hd'
    split_ifs at hd'
    exact ok.dirty c p hd'
  | wait => exact ⟨ok.dirty, ok.period, ok.complete, ok.cursor⟩
  | cell _ hw _ hlt => exact ⟨ok.dirty, ok.period, ok.complete, fun _ => ⟨hlt, (ok.cursor hw).2⟩⟩
  | last => exact ⟨ok.dirty, ok.period, ok.complete, fun hw => absurd rfl hw⟩

/-! ## The overlay -/

/-- A slot the overlay may write over. -/
def OverlaySlot (m : Master) (emit : MasterEmit) : Prop := emit = .filler ∧ m.state = .established

/-- What the overlay does to the table and to the block, where the table is in order. -/
theorem headampOverlay_move (ok : TableOk p.headamp) (emit : MasterEmit) (ctrl : Option Template) :
    ∃ t' rec, (headampOverlay p emit ctrl).1 = { p with headamp := t' } ∧
      (headampOverlay p emit ctrl).2.bind headampRecord = rec.or (ctrl.bind headampRecord) ∧
      (OverlaySlot p.master emit ∧ HeadampMove p.headamp t' rec ∨
        ¬ OverlaySlot p.master emit ∧ t' = p.headamp ∧ rec = none) := by
  unfold headampOverlay OverlaySlot
  by_cases hslot : emit = .filler ∧ p.master.state = .established
  · have hmove := headampTxNext_move ok
    by_cases hdue : p.headamp.active = true ∨ p.headamp.replayWidth ≠ 0
    · rw [if_pos ⟨hslot.1, hslot.2, hdue⟩]
      generalize headampTxNext p.headamp = r at hmove
      obtain ⟨t', rec⟩ := r
      refine ⟨t', rec, ?_, ?_, .inl ⟨hslot, hmove⟩⟩
      · cases rec <;> rfl
      · cases hrec : rec with
        | none => rfl
        | some r =>
          obtain ⟨c, param, value⟩ := r
          obtain ⟨hc, hparam, hvalue⟩ := hmove.legal ok hrec
          unfold headampMaxCh at hc
          have hok : headampArgsOk param value = true := by
            rw [hvalue]
            exact headampArgsOk_effective _ c hparam
          have hbyte : c < 256 := by omega
          obtain ⟨blk, hstamp, hblk⟩ := stampHeadamp_record hbyte hparam hok
          dsimp only
          rw [hstamp, Option.some_or, Option.bind_some, hblk]
          rfl
    · rw [if_neg (by simp only [not_and]; exact fun _ _ => hdue)]
      refine ⟨p.headamp, none, rfl, rfl, .inl ⟨hslot, ?_⟩⟩
      rw [not_or, not_not] at hdue
      refine .silent ?_ hdue.2
      intro c param
      cases hd : p.headamp.dirty c param with
      | false => rfl
      | true => exact absurd (ok.dirty c param hd).2.2.2 hdue.1
  · rw [if_neg (by rintro ⟨h₁, h₂, -⟩; exact hslot ⟨h₁, h₂⟩)]
    exact ⟨p.headamp, none, rfl, rfl, .inr ⟨hslot, rfl, rfl⟩⟩

/-! ## Frames and slots -/

theorem noteTransition_headamp (env : Env) (p : Pacer) (src dst : MasterState) :
    (noteTransition env p src dst).1.headamp =
      if dst = .established ∧ src ≠ .established ∧ env.noHeadamp = false then
        headampTxArmScene p.headamp p.master.alloc.base p.master.alloc.width
      else p.headamp := by
  unfold noteTransition
  dsimp only
  split_ifs <;> rfl

theorem rxDeclare_state (p : Pacer) (frame : List UInt8) :
    (rxDeclare p frame).master.state = p.master.state ∨
      (rxDeclare p frame).master.state = .granting := by
  rcases rxDeclare_master p frame with ⟨-, heq⟩ | ⟨a, rows, -, -, ⟨-, heq⟩ | ⟨-, heq⟩⟩
  · exact .inl (congrArg Master.state heq)
  · left
    rw [heq]
    rfl
  · right
    rw [heq]
    exact enterGranting_state ..

/-- A frame leaves ESTABLISHED as it finds it, or changes the state; a session it enters is entered
out of a window. -/
theorem masterRx_state (tx : HeadampTx) (m : Master) (ev : RxEvent) (src : Mac)
    (blk : Option Block) :
    let r := masterRx tx m ev src blk
    r.1.state = .established → r.2 = false ∧ m.state = .established ∨
      r.2 = true ∧ m.state ≠ .established := by
  have hmove := masterRx_move tx m ev src blk
  generalize masterRx tx m ev src blk = r at hmove
  obtain ⟨m', changed⟩ := r
  intro r hest
  have hheard : ∀ {m₁ : Master}, Heard m m₁ → m₁.state = .established → m.state = .established := by
    intro m₁ h₁ hs
    obtain ⟨seen, lc, rfl⟩ := h₁.of_ne_probing (by rw [hs]; decide)
    exact hs
  cases hmove with
  | refused => exact .inl ⟨rfl, hest⟩
  | stay _ h₁ => exact .inl ⟨rfl, hheard h₁ hest⟩
  | held h₁ => exact .inl ⟨rfl, hheard h₁ hest⟩
  | latch | relatch => exact absurd ((enterGranting_state ..).symm.trans hest) (by decide)
  | bye => exact absurd ((enterProbing_state _).symm.trans hest) (by decide)
  | accept _ h₁ hs =>
    refine .inr ⟨rfl, ?_⟩
    rcases h₁.cases with ⟨hidle, -⟩ | ⟨-, seen, lc, rfl⟩
    · rw [hidle]
      decide
    · rw [show m.state = .granting from hs]
      decide

/-- What the transition a frame made does to the table. -/
theorem taken_headamp (env : Env) (p : Pacer) (ev : RxEvent) (src : Mac) (blk : Option Block) :
    let m := masterRx p.headamp p.master ev src blk
    let q := syncPublishedBox { p with master := m.1 }
    let r := if m.2 then noteTransition env q p.master.state q.master.state else (q, [])
    let p' := r.1
    (p'.headamp = p.headamp ∧
      (env.noHeadamp = false → p'.master.state = .established → p.master.state = .established)) ∨
    (p'.headamp = headampTxArmScene p.headamp p'.master.alloc.base p'.master.alloc.width ∧
      p'.master.state = .established ∧ ∃ s, some s ∈ r.2) := by
  have hstate := masterRx_state p.headamp p.master ev src blk
  generalize masterRx p.headamp p.master ev src blk = m at hstate
  obtain ⟨_, _, _, _, _, _, complete, hsync, -⟩ := syncPublishedBox_eq { p with master := m.1 }
  dsimp only at hstate ⊢
  rw [hsync]
  cases hchanged : m.2 with
  | false =>
    rw [if_neg (by decide)]
    refine .inl ⟨rfl, ?_⟩
    intro _ hest
    rcases hstate hest with ⟨-, hwas⟩ | ⟨hyes, -⟩
    · exact hwas
    · rw [hchanged] at hyes
      cases hyes
  | true =>
    rw [if_pos rfl, noteTransition_headamp]
    have hmaster : ∀ (q : Pacer) (src dst : MasterState),
        (noteTransition env q src dst).1.master = q.master := by
      intro q src dst
      unfold noteTransition
      dsimp only
      split_ifs <;> rfl
    rw [hmaster]
    have hreports : ∀ (q : Pacer) (src dst : MasterState),
        (noteTransition env q src dst).2 = sessionReport q.master src dst := by
      intro q src dst
      unfold noteTransition
      dsimp only
      split_ifs <;> rfl
    rw [hreports]
    split_ifs with harm
    · refine .inr ⟨rfl, harm.1, ?_⟩
      unfold sessionReport
      rw [if_pos harm.1]
      exact ⟨_, List.mem_singleton_self _⟩
    · refine .inl ⟨rfl, ?_⟩
      intro hon hest
      by_contra hne
      exact harm ⟨hest, hne, hon⟩

/-- A frame arms the scene when the session it enters is noted, and at no other time. -/
theorem rxIngest_headamp (env : Env) (p : Pacer) (bytes : List UInt8) :
    let p' := (rxIngest env p bytes).1
    (p'.headamp = p.headamp ∧
      (env.noHeadamp = false → p'.master.state = .established → p.master.state = .established)) ∨
    (p'.headamp = headampTxArmScene p.headamp p'.master.alloc.base p'.master.alloc.width ∧
      p'.master.state = .established ∧ ∃ s, some s ∈ (rxIngest env p bytes).2) := by
  obtain ⟨ident, frag, complete, hpass⟩ := rxIdentityPass_eq p (cleanFrame bytes)
  unfold rxIngest
  dsimp only
  cases classifyBoxFrame (cleanFrame bytes) (rxIdentityPass p (cleanFrame bytes)).src with
  | none =>
    left
    rw [hpass]
    exact ⟨rfl, fun _ => id⟩
  | some pe =>
    obtain ⟨parsed, ev⟩ := pe
    dsimp only
    cases (rxIdentityPass p (cleanFrame bytes)).master.peerAccepts parsed.src ev with
    | false =>
      left
      rw [hpass]
      exact ⟨rfl, fun _ => id⟩
    | true =>
      rw [hpass]
      have hnote := taken_headamp env (rxDeclare { p with
        rxIdentity := ident, rxIdentityFrag := frag
        master := masterIdentityAnswered p.master complete } (cleanFrame bytes)) ev parsed.src
        (eventBlock ev (cleanFrame bytes))
      have hstate := rxDeclare_state { p with
        rxIdentity := ident, rxIdentityFrag := frag
        master := masterIdentityAnswered p.master complete } (cleanFrame bytes)
      have htable := (rxDeclare_path {} { p with
        rxIdentity := ident, rxIdentityFrag := frag
        master := masterIdentityAnswered p.master complete } (cleanFrame bytes)).2
      generalize rxDeclare { p with
        rxIdentity := ident, rxIdentityFrag := frag
        master := masterIdentityAnswered p.master complete } (cleanFrame bytes) = q at *
      rw [← show _ = p.headamp from htable]
      rcases hnote with ⟨hsame, hwas⟩ | harmed
      · refine .inl ⟨hsame, ?_⟩
        intro hon hest
        rcases hstate with hs | hs
        · exact hs.symm.trans (hwas hon hest)
        · exact absurd (hs.symm.trans (hwas hon hest)) (by decide)
      · exact .inr harmed

/-- The table a slot works on: the commands that were waiting are applied. -/
def Pacer.drained (p : Pacer) : HeadampTx := (headampDrain p).headamp

theorem drained_spec (ok : TableOk p.headamp) : TableOk p.drained ∧ CellsSet p.headamp p.drained :=
  foldl_headampTxSet ok p.headampCmds

/-- The step of the master inside a slot. -/
def Pacer.next (env : Env) (p : Pacer) : Master × Slot := masterNext env.tunables p.headamp p.master

/-- A slot, as far as head-amps are concerned. The scene is armed when the pacer first sees the
session. -/
theorem masterSlot_table (ok : TableOk p.headamp) (env : Env) :
    ∃ t' rec, (masterSlot env p).2.2.slot = (p.next env).2 ∧
      (masterSlot env p).2.2.ctrl.bind headampRecord
        = rec.or ((masterStamp (p.next env).1 (p.next env).2).bind headampRecord) ∧
      (OverlaySlot (p.next env).1 (p.next env).2.emit ∧ HeadampMove p.drained t' rec ∨
        ¬ OverlaySlot (p.next env).1 (p.next env).2.emit ∧ t' = p.drained ∧ rec = none) ∧
      (masterSlot env p).1.headamp =
        if (p.next env).1.state = .established ∧ p.prevState ≠ .established ∧
            env.noHeadamp = false then
          headampTxArmScene t' (p.next env).1.alloc.base (p.next env).1.alloc.width
        else t' := by
  have hok : TableOk (headampDrain { p with master := (p.next env).1 }).headamp :=
    (drained_spec ok).1
  obtain ⟨t', rec, hover, hrec, hmove⟩ := headampOverlay_move hok (p.next env).2.emit
    (masterStamp (p.next env).1 (p.next env).2)
  refine ⟨t', rec, ?_, ?_, hmove, ?_⟩
  · unfold masterSlot
    dsimp only
    split_ifs <;> rfl
  · rw [← hrec]
    unfold masterSlot
    dsimp only
    split_ifs <;> rfl
  · have hfst : (masterSlot env p).1 =
        let q := (headampOverlay (headampDrain { p with master := (p.next env).1 })
          (p.next env).2.emit (masterStamp (p.next env).1 (p.next env).2)).1
        if q.master.state ≠ q.prevState then
          syncPublishedBox (noteTransition env q q.prevState q.master.state).1
        else q := by
      unfold masterSlot
      dsimp only
      rw [apply_ite Prod.fst]
      rfl
    rw [hfst, hover]
    dsimp only [headampDrain]
    by_cases hst : (p.next env).1.state ≠ p.prevState
    · rw [if_pos hst]
      obtain ⟨_, _, _, _, _, _, _, hsync, -⟩ := syncPublishedBox_eq (noteTransition env
        { p with master := (p.next env).1, headamp := t', headampCmds := [] } p.prevState
        (p.next env).1.state).1
      rw [hsync]
      exact noteTransition_headamp ..
    · rw [if_neg hst, if_neg]
      rintro ⟨hest, hprev, -⟩
      exact hst (by rw [hest]; exact hprev.symm)

/-! ## Every pacer -/

/-- The head-amp record a slot carries. -/
def Sent.record (s : Sent) : Option (ℕ × ℕ × UInt8) := s.ctrl.bind headampRecord

/-- The table is in order, and only grants and the overlay speak to a head-amp. -/
structure WireOk (p : Pacer) : Prop where
  announce : AnnounceOk p.master
  scene : p.master.SceneBlkOk
  table : TableOk p.headamp

theorem WireOk.path {p' : Pacer} {t : MasterTunables} (ok : WireOk p)
    (h : MasterPath t p.headamp p.master p'.master) (htable : TableOk p'.headamp) : WireOk p' := by
  refine ⟨?_, ?_, htable⟩
  · exact h.invariant (fun _ i h => h.step i) (fun _ _ h => h.congr rfl) ok.announce
  · exact h.invariant (fun _ i h => h.step t i) (fun _ _ h => h) ok.scene

theorem WireOk.frame (ok : WireOk p) (env : Env) (bytes : List UInt8) :
    WireOk (rxIngest env p bytes).1 := by
  refine ok.path (rxIngest_path env p bytes) ?_
  rcases rxIngest_headamp env p bytes with ⟨heq, -⟩ | ⟨heq, -⟩
  · rw [heq]
    exact ok.table
  · rw [heq]
    exact ok.table.armScene _

/-- The values a frame leaves are the ones it found. -/
theorem rxIngest_effective (env : Env) (p : Pacer) (bytes : List UInt8) (ch param : ℕ) :
    headampTxEffective (some (rxIngest env p bytes).1.headamp) ch param
      = headampTxEffective (some p.headamp) ch param := by
  rcases rxIngest_headamp env p bytes with ⟨heq, -⟩ | ⟨heq, -⟩
  · rw [heq]
  · rw [heq]
    exact headampTxArmScene_effective ..

theorem WireOk.masterSlot (ok : WireOk p) (env : Env) : WireOk (masterSlot env p).1 := by
  refine ok.path (masterSlot_path env p) ?_
  obtain ⟨t', rec, -, -, hmove, heq⟩ := masterSlot_table ok.table env
  have hok : TableOk t' := by
    rcases hmove with ⟨-, hmove⟩ | ⟨-, rfl, -⟩
    · exact hmove.tableOk (drained_spec ok.table).1
    · exact (drained_spec ok.table).1
  rw [heq]
  split_ifs
  · exact hok.armScene _
  · exact hok

/-- The values a slot leaves are those of the commands it applied. -/
theorem masterSlot_effective (ok : WireOk p) (env : Env) (ch param : ℕ) :
    headampTxEffective (some (masterSlot env p).1.headamp) ch param
      = headampTxEffective (some p.drained) ch param := by
  obtain ⟨t', rec, -, -, hmove, heq⟩ := masterSlot_table ok.table env
  have heff : headampTxEffective (some t') ch param
      = headampTxEffective (some p.drained) ch param := by
    rcases hmove with ⟨-, hmove⟩ | ⟨-, rfl, -⟩
    · exact hmove.effective ch param
    · rfl
  rw [heq]
  split_ifs
  · exact (headampTxArmScene_effective ..).trans heff
  · exact heff

/-- A record on the wire comes from a grant row or from the overlay. -/
theorem masterSlot_record (ok : WireOk p) (env : Env) {r : ℕ × ℕ × UInt8}
    (h : (masterSlot env p).2.2.record = some r) :
    (p.next env).2.emit = .grant ∧
        (masterStamp (p.next env).1 (p.next env).2).bind headampRecord = some r ∨
      r.2.2 = headampTxEffective (some p.drained) r.1 r.2.1 := by
  obtain ⟨t', rec, -, hrec, hmove, -⟩ := masterSlot_table ok.table env
  rw [Sent.record, hrec] at h
  cases hr : rec with
  | none =>
    left
    rw [hr, Option.none_or] at h
    refine ⟨?_, h⟩
    by_contra hne
    have hnext : MasterPath env.tunables p.headamp p.master (p.next env).1 :=
      (MasterPath.refl _).step .next
    have hannounce := hnext.invariant (fun _ i h => h.step i) (fun _ _ h => h.congr rfl) ok.announce
    have hscene := hnext.invariant (I := Master.SceneBlkOk) (fun _ i h => h.step env.tunables i)
      (fun _ _ h => h) ok.scene
    rw [masterStamp_record hannounce hscene hne] at h
    cases h
  | some r' =>
    right
    rw [hr, Option.some_or, Option.some.injEq] at h
    subst h
    rcases hmove with ⟨-, hmove⟩ | ⟨-, -, hnone⟩
    · exact (hmove.legal (drained_spec ok.table).1 hr).2.2
    · rw [hr] at hnone
      cases hnone

theorem sceneBlkOk_init (t : MasterTunables) (placeholder : SceneBody) (src : Mac)
    (cfg : Option ConsoleCfg) (fps : ℤ) : (masterInit t placeholder src cfg fps).SceneBlkOk := by
  unfold masterInit
  refine scenePrepare_blk ?_
  unfold Master.SceneBlkOk
  dsimp only
  rw [byte_of_lt _ (by omega)]
  simp

/-- A pacer whose master has just been initialised. -/
theorem wireOk_init (t : MasterTunables) (placeholder : SceneBody) (src : Mac)
    (cfg : Option ConsoleCfg) (tx : HeadampTx) (fps : ℤ) (hok : TableOk p.headamp)
    (hm : p.master = masterSetHeadampSrc tx (masterInit t placeholder src cfg fps) true) :
    WireOk p := by
  refine ⟨?_, ?_, hok⟩
  · rw [hm]
    exact (announceOk_init t placeholder src cfg fps).step (t := t) (tx, .setHeadampSrc true)
  · rw [hm]
    exact (sceneBlkOk_init t placeholder src cfg fps).step t (tx, .setHeadampSrc true)

theorem WireOk.rateDrain (ok : WireOk p) (env : Env) : WireOk (rateDrain env p).1 := by
  unfold Libreac.rateDrain
  split_ifs
  · obtain ⟨cfg, hm⟩ := applyRate_master env { p with rateReqSeen := p.rateReqSeq } p.rateReqHz
    exact wireOk_init _ _ _ cfg _ _ (ok.table.setResweep _) hm
  · exact ok

theorem wireOk_open (env : Env) (cfg : PacerCfg) : WireOk (pacerOpen env cfg) :=
  wireOk_init env.tunables env.placeholder cfg.srcMac (some cfg.consoleCfg)
    (headampOpen cfg.fps cfg.headamps) cfg.fps (tableOk_open ..) rfl

theorem WireOk.step (ok : WireOk p) (env : Env) (i : PacerInput) : WireOk (pacerStep env p i).1 := by
  cases i with
  | frame bytes => exact ok.frame env bytes
  | slot =>
    rw [(pacerStep_slot_eq env p).1]
    exact (ok.rateDrain env).masterSlot env
  | requestRate r => exact ⟨ok.announce, ok.scene, ok.table⟩
  | requestReestablish => exact ⟨ok.announce, ok.scene, ok.table⟩
  | headampSet ch param value =>
    simp only [pacerStep, headampSet]
    split_ifs
    · exact ok
    · exact ⟨ok.announce, ok.scene, ok.table⟩

end Libreac
