import Libreac.Proofs.AnnounceProofs
import Libreac.Proofs.BraidProofs
import Libreac.Proofs.CtrlProofs
import Libreac.Proofs.HeadampProofs
import Libreac.Proofs.SceneProofs

/-!
# Proofs: what a slot stamps

`reac_master_next` hands an emission and an index to `reac_master_stamp`, which looks the index up in
tables the same slot may have changed. `Cadence.InRange` and `Window.Ordered` bound the indices, and
every table a slot names survives it.
-/

namespace Libreac

variable {t : MasterTunables} {tx : HeadampTx} {m : Master} {s : Slot} {c : Cadence}

/-! ## What a block stands for -/

/-- The block is a request for a record of the identity page. -/
def Template.identityRequest (b : Template) : Prop :=
  b.byte 0 = 0xcd ∧ b.byte 1 = 0xea ∧ b.byte 2 = 0x04 ∧ b.byte 3 = 0x03 ∧
    b.byte 16 = 0x12 ∧ b.byte 17 = 0x11 ∧ b.byte 18 = 0x05 ∧ b.byte 19 = 0x00

/-- The block is of the kind the emission stands for. -/
def Template.standsFor (b : Template) : MasterEmit → Prop
  | .filler => True
  | .sceneHead | .sceneChunk | .sceneTail => b.kind = .sceneTransfer
  | .grant => b.kind = .grant ∨ b.kind = .headamp
  | .enroll => b.kind = .groupMap
  | .chanmap => b.kind = .masterHb
  | .announce => b.kind = .masterAnnounce
  | .identityPoll => b.identityRequest

/-- What the parser makes of the frame is what the emission stands for. An identity request is a
single record with the command `RQ1` (`0x11`) on the register page `0x0500`. -/
def FrameReads (frame : List UInt8) : MasterEmit → Prop
  | .filler => True
  | .sceneHead | .sceneChunk | .sceneTail => (ctrlParse frame).kind = .sceneTransfer
  | .grant => (ctrlParse frame).kind = .grant ∨ (ctrlParse frame).kind = .headamp
  | .enroll => (ctrlParse frame).kind = .groupMap
  | .chanmap => (ctrlParse frame).kind = .masterHb
  | .announce => (ctrlParse frame).kind = .masterAnnounce
  | .identityPoll => (ctrlParse frame).kind = .grant ∧ (ctrlParse frame).dt1Tag = 0x0500 ∧
      byteAt frame (18 + 14) = 0x12 ∧ byteAt frame (18 + 15) = 0x11

theorem CarriesBlock.reads {frame : List UInt8} {b : Template} {emit : MasterEmit}
    (h : CarriesBlock frame b) (hb : b.standsFor emit) : FrameReads frame emit := by
  cases emit with
  | filler => trivial
  | sceneHead | sceneChunk | sceneTail | enroll | chanmap | announce => exact h.kind.trans hb
  | grant =>
    unfold FrameReads
    rw [h.kind]
    exact hb
  | identityPoll =>
    obtain ⟨h0, h1, h2, h3, h16, h17, h18, h19⟩ := hb
    have hword : u16be 0x05 0x00 = 0x0500 := by decide
    refine ⟨?_, ?_, ?_, ?_⟩
    · rw [h.kind]
      apply kind_grant ⟨h0, h1, h2, h3⟩
      rw [h18, h19]
      decide
    · rw [h.tag ⟨h0, h1, h2, h3⟩, h18, h19, hword]
    · rw [h.byte (by omega), h16]
    · rw [h.byte (by omega), h17]

/-- The kind of a block is in its first twenty bytes. -/
theorem kind_congr {a b : Template} (h : ∀ i < 20, a.byte i = b.byte i) : a.kind = b.kind := by
  unfold Template.kind
  rw [h 0 (by omega), h 1 (by omega), h 2 (by omega), h 3 (by omega), h 6 (by omega),
    h 16 (by omega), h 17 (by omega), h 18 (by omega), h 19 (by omega)]

theorem kind_stampBlockCksum (b : Template) : (stampBlockCksum b).kind = b.kind := by
  apply kind_congr
  intro i hi
  exact byte_stampBlockCksum b (by omega)

theorem kind_link1 {b : Template} (h0 : b.byte 0 = 0xcd) (h1 : b.byte 1 = 0xea) (h2 : b.byte 2 = 0x01) :
    b.kind = kindOfLink1 (b.byte 6) := by
  unfold Template.kind
  rw [h0, h1, h2, if_neg (by decide), if_neg (by decide), if_neg (by decide), if_neg (by decide),
    if_pos rfl]

theorem kind_genCfea (src : Mac) (cfg : ConsoleCfg) (boxes : UInt16) :
    (genCfea src cfg boxes).kind = .masterAnnounce := by
  have h0 : (genCfea src cfg boxes).byte 0 = 0xcf := by
    unfold genCfea
    rw [byte_stampBlockCksum _ (by omega), byte_ofFn _ (by omega)]
    rfl
  have h1 : (genCfea src cfg boxes).byte 1 = 0xea := by
    unfold genCfea
    rw [byte_stampBlockCksum _ (by omega), byte_ofFn _ (by omega)]
    rfl
  unfold Template.kind
  rw [h0, h1, if_neg (by decide), if_pos ⟨rfl, rfl⟩]

theorem kind_chanmapFrame (cfg : ConsoleCfg) (f : ℕ) : (chanmapFrame cfg f).kind = .masterHb := by
  have hbyte : ∀ i (hi : i < 7), (chanmapFrame cfg f).byte i =
      (#v[0xcd, 0xea, 0x01, 0x03, 0x00, 0x19, 0x01] : Vector UInt8 7)[i] := by
    intro i hi
    unfold chanmapFrame
    rw [byte_stampBlockCksum _ (by omega), byte_ofFn _ (by omega), dif_pos hi]
  rw [kind_link1 (hbyte 0 (by omega)) (hbyte 1 (by omega)) (hbyte 2 (by omega)), hbyte 6 (by omega)]
  rfl

theorem kind_enrollBlkOf (cfg : ConsoleCfg) (w : ℤ) : (enrollBlkOf cfg w).kind = .groupMap := by
  have hbyte : ∀ i < 7, (enrollBlkOf cfg w).byte i = enrollTmpl.byte i := by
    intro i hi
    unfold enrollBlkOf setEnrollWidth
    rw [byte_stampBlockCksum _ (by omega), byte_ofFn _ (by omega), if_neg (by dsimp only; omega),
      if_neg (by dsimp only; omega), byte_of_lt _ (by omega)]
    simp [show (8 : ℕ) ≠ i by omega]
  rw [kind_link1 (hbyte 0 (by omega)) (hbyte 1 (by omega)) (hbyte 2 (by omega)), hbyte 6 (by omega)]
  rfl

theorem kind_sceneBlock (seg len : UInt8) (payload : ℕ → UInt8) :
    (sceneBlock seg len payload).kind = .sceneTransfer := by
  have hbyte : ∀ i (hi : i < 7), (sceneBlock seg len payload).byte i =
      (#v[0xcd, 0xea, 0x01, seg, 0x00, len, 0x00] : Vector UInt8 7)[i] := by
    intro i hi
    unfold sceneBlock
    rw [byte_stampBlockCksum _ (by omega), byte_ofFn _ (by omega), dif_pos hi]
  rw [kind_link1 (hbyte 0 (by omega)) (hbyte 1 (by omega)) (hbyte 2 (by omega)), hbyte 6 (by omega)]
  rfl

/-- Every step of the transfer is built. -/
theorem buildSceneStep_kind (body : SceneBody) {step : ℕ} (h : step < sceneSteps) :
    ∃ blk, buildSceneStep body step = some blk ∧ blk.kind = .sceneTransfer := by
  unfold buildSceneStep
  rw [if_neg (by omega)]
  split_ifs
  · exact ⟨_, rfl, kind_sceneBlock ..⟩
  · exact ⟨_, rfl, kind_sceneBlock ..⟩
  · exact ⟨_, rfl, kind_sceneBlock ..⟩

/-- A row of a sweep is a head-amp record or a grant. -/
theorem IsSweep.kind {a : GrantAlloc} {rows : List Template} (h : IsSweep a rows) {row : Template}
    (hrow : row ∈ rows) : row.kind = .grant ∨ row.kind = .headamp := by
  have hpos := h.length.2
  obtain ⟨tx, hsweep⟩ := h
  have hfixed : grantHeadAck.kind = .grant ∧ grantHeadMark.kind = .grant ∧
      ∀ r ∈ grantGroupb, r.kind = .grant := by decide
  have hgroupa : ∀ ch, row ∈ channelRows tx ch → row.kind = .headamp := by
    intro ch hmem
    have hcell : ∀ p, (groupaRow tx ch p).kind = .headamp := by
      intro p
      have hbyte : ∀ i < 20, (groupaRow tx ch p).byte i = (tmplHeadamp 0 0 0).byte i := by
        intro i hi
        unfold groupaRow
        rw [byte_recordStamped _ (by omega), byte_of_lt _ (by omega), byte_of_lt _ (by omega)]
        unfold tmplHeadamp
        interval_cases i <;> rfl
      rw [kind_congr hbyte]
      decide
    simp only [channelRows, List.mem_cons, List.not_mem_nil, or_false] at hmem
    rcases hmem with rfl | rfl | rfl
    · exact hcell 0
    · exact hcell 1
    · exact hcell 2
  rw [grantBuildSweep_eq hpos] at hsweep
  obtain rfl := Option.some.inj hsweep
  simp only [List.mem_append, List.mem_singleton, List.mem_flatMap] at hrow
  rcases hrow with (((rfl | hfirst) | rfl) | hgroupb) | ⟨c, -, hrest⟩
  · exact .inl hfixed.1
  · exact .inr (hgroupa _ hfirst)
  · exact .inl hfixed.2.1
  · exact .inl (hfixed.2.2 _ hgroupb)
  · exact .inr (hgroupa _ hrest)

/-! ## The indices of a slot -/

/-- The cursor of the map and the polls left are in range. -/
structure Cadence.InRange (c : Cadence) : Prop where
  cursor : c.chanmapCursor < chanmapRing
  left : 0 ≤ c.identityPollLeft ∧ c.identityPollLeft ≤ groupbLen

/-- The index of a slot is one of the table it is looked up in; a scene slot has selected a step. -/
def SlotInRange (sweep : ℕ) (c : Cadence) (s : Slot) : Prop :=
  match s.emit with
  | .grant => 0 ≤ s.idx ∧ s.idx < sweep
  | .chanmap => 0 ≤ s.idx ∧ s.idx < chanmapRing
  | .identityPoll => 0 ≤ s.idx ∧ s.idx < groupbLen
  | .sceneHead | .sceneChunk | .sceneTail => c.sceneStep < sceneSteps
  | .filler | .enroll | .announce => True

theorem Cadence.InRange.advance (h : c.InRange) (tick : ℤ) :
    Cadence.InRange { c with estChanmapTick := tick, chanmapCursor := (c.chanmapCursor + 1) % chanmapRing } :=
  ⟨Nat.mod_lt _ (by decide), h.left⟩

theorem grantingChanmapDue_range (g : Geometry) (h : c.InRange) :
    (grantingChanmapDue g c).1.InRange ∧ ∀ i ∈ (grantingChanmapDue g c).2, i < chanmapRing := by
  unfold grantingChanmapDue
  split_ifs
  · exact ⟨⟨h.cursor, h.left⟩, nofun⟩
  · refine ⟨h.advance 0, ?_⟩
    rintro i ⟨⟩
    exact h.cursor

theorem dwellSlot_range (g : Geometry) (sweep : ℕ) (h : c.InRange) :
    (dwellSlot g c).1.InRange ∧ SlotInRange sweep (dwellSlot g c).1 (dwellSlot g c).2 := by
  obtain ⟨hin, hidx⟩ := grantingChanmapDue_range g h
  unfold dwellSlot
  generalize grantingChanmapDue g c = r at hin hidx
  obtain ⟨c', _ | i⟩ := r
  · dsimp only
    split_ifs
    · exact ⟨⟨hin.cursor, hin.left⟩, trivial⟩
    · exact ⟨⟨hin.cursor, hin.left⟩, trivial⟩
  · have hi := hidx i rfl
    exact ⟨hin, by dsimp only; omega, by dsimp only; omega⟩

/-- The clock of a window has not fallen behind the end of its dwell. -/
def Window.Ordered (w : Window) : Prop := w.dwellEndedTick ≤ w.grantTicks

theorem grantSlot_range (hstride : m.geo.grantStride = 12) (hw : m.win.Ordered)
    (hdwell : 0 < m.win.dwellEndedTick ∨ m.geo.grantDwell < m.win.grantTicks) {k : ℤ}
    (h : m.grantSlot = some k) : 0 ≤ k ∧ k < m.grantBurst.length := by
  unfold Window.Ordered at hw
  have hanchor : m.grantAnchor ≤ m.win.grantTicks := by
    unfold Master.grantAnchor
    split_ifs <;> omega
  unfold Master.grantSlot at h
  rw [hstride] at h
  dsimp only at h
  split_ifs at h with hrow
  obtain rfl := Option.some.inj h
  obtain ⟨hmod, hlt⟩ := hrow
  refine ⟨?_, hlt⟩
  have hneg : m.win.grantTicks - 1 - m.grantAnchor ≠ -1 := by
    intro hlast
    rw [hlast] at hmod
    revert hmod
    decide
  exact Int.tdiv_nonneg (by omega) (by omega)

theorem burstWindowSlot_range (hstride : m.geo.grantStride = 12) (hw : m.win.Ordered)
    (hdwell : 0 < m.win.dwellEndedTick ∨ m.geo.grantDwell < m.win.grantTicks) (h : m.cad.InRange) :
    (burstWindowSlot m).1.InRange ∧
      SlotInRange m.grantBurst.length (burstWindowSlot m).1 (burstWindowSlot m).2 := by
  unfold burstWindowSlot
  cases hslot : m.grantSlot with
  | some k => exact ⟨h, grantSlot_range hstride hw hdwell hslot⟩
  | none =>
    obtain ⟨hin, hidx⟩ := grantingChanmapDue_range m.geo h
    dsimp only
    generalize grantingChanmapDue m.geo m.cad = r at hin hidx
    obtain ⟨c', _ | i⟩ := r
    · exact ⟨hin, trivial⟩
    · have hi := hidx i rfl
      exact ⟨hin, by dsimp only; omega, by dsimp only; omega⟩

theorem enrollSlot_range (t : MasterTunables) (sweep : ℕ) (c : Cadence) :
    SlotInRange sweep c (enrollSlot t) := by
  unfold SlotInRange enrollSlot Slot.plain
  cases t.noEnroll <;> trivial

theorem dwellEndsNow_ordered (hw : m.win.Ordered) :
    (dwellEndsNow t m).1.Ordered ∧ (dwellEndsNow t m).1.grantTicks = m.win.grantTicks ∧
      ((dwellEndsNow t m).2 = true → 0 < m.win.grantTicks → 0 < (dwellEndsNow t m).1.dwellEndedTick) := by
  unfold dwellEndsNow
  split_ifs with hended harmed
  · exact ⟨hw, rfl, fun _ _ => hended⟩
  · exact ⟨le_refl _, rfl, fun _ hpos => hpos⟩
  · exact ⟨hw, rfl, nofun⟩

/-- A slot to a box of known width names an index in range and keeps its window in order. -/
theorem declaredSlot_range (t : MasterTunables) (hstride : m.geo.grantStride = 12) (hw : m.win.Ordered)
    (hticks : 0 ≤ m.win.grantTicks) (h : m.cad.InRange) :
    let r := declaredSlot t m
    r.1.InRange ∧ r.2.1.Ordered ∧ 0 ≤ r.2.1.grantTicks ∧
      SlotInRange m.grantBurst.length r.1 r.2.2 := by
  unfold declaredSlot
  by_cases hzero : m.win.grantTicks = 0
  · rw [if_pos hzero]
    exact ⟨h, hw, hticks, enrollSlot_range ..⟩
  rw [if_neg hzero]
  by_cases hdwell : m.win.grantTicks ≤ m.geo.grantDwell
  · rw [if_pos hdwell]
    obtain ⟨hord, htick, hended⟩ := dwellEndsNow_ordered (t := t) hw
    generalize dwellEndsNow t m = r at hord htick hended
    obtain ⟨w, _ | _⟩ := r
    · dsimp only at htick ⊢
      split_ifs
      · exact ⟨h, hord, by dsimp only; omega, enrollSlot_range ..⟩
      · obtain ⟨hin, hslot⟩ := dwellSlot_range m.geo m.grantBurst.length h
        exact ⟨hin, hord, by dsimp only; omega, hslot⟩
    · obtain ⟨hin, hslot⟩ := burstWindowSlot_range (m := { m with win := w }) hstride hord
        (.inl (hended rfl (by omega))) h
      exact ⟨hin, hord, by dsimp only at htick ⊢; omega, hslot⟩
  · rw [if_neg hdwell]
    obtain ⟨hin, hslot⟩ := burstWindowSlot_range hstride hw (.inr (by omega)) h
    exact ⟨hin, hw, hticks, hslot⟩

theorem undeclaredSlot_range (sweep : ℕ) (h : m.cad.InRange) :
    (undeclaredSlot m).1.InRange ∧ SlotInRange sweep (undeclaredSlot m).1 (undeclaredSlot m).2 := by
  unfold undeclaredSlot
  split_ifs
  · exact ⟨h, trivial⟩
  · exact dwellSlot_range m.geo sweep h

theorem identityPoll_range (g : Geometry) (complete : Bool) (sweep : ℕ) (h : c.InRange) :
    (identityPoll g complete c).1.InRange ∧
      SlotInRange sweep (identityPoll g complete c).1 (identityPoll g complete c).2 := by
  obtain ⟨hcursor, hleft⟩ := h
  unfold identityPoll
  split_ifs with hpos
  · refine ⟨⟨hcursor, ?_⟩, ?_, ?_⟩
    · dsimp only
      omega
    · dsimp only
      omega
    · dsimp only
      omega
  · exact ⟨⟨hcursor, hleft⟩, trivial⟩
  · exact ⟨⟨hcursor, Int.natCast_nonneg _, le_refl _⟩, trivial⟩
  · exact ⟨⟨hcursor, hleft⟩, trivial⟩

theorem burstIndexAt_lt {g : Geometry} {pos k : ℤ} (h : burstIndexAt g pos = some k) :
    1 + k.toNat < sceneSteps := by
  have hk := burstIndexAt_sound h
  unfold sceneSteps sceneChunks
  omega

theorem sceneSlot_range {g : Geometry} {pos : ℤ} {step : ℕ} {emit : MasterEmit}
    (h : sceneSlot g pos = some (step, emit)) : step < sceneSteps ∧ emit.isScene = true := by
  unfold sceneSlot at h
  split at h
  · rename_i k hk
    cases h
    exact ⟨burstIndexAt_lt hk, rfl⟩
  · split_ifs at h
    · cases h
      exact ⟨by decide, rfl⟩
    · cases h
      exact ⟨by decide, rfl⟩

theorem slotInRange_scene {sweep : ℕ} {emit : MasterEmit} (hscene : emit.isScene = true)
    (hstep : c.sceneStep < sceneSteps) : SlotInRange sweep c (.plain emit) := by
  cases emit with
  | sceneHead | sceneChunk | sceneTail => exact hstep
  | filler | grant | identityPoll | enroll | chanmap | announce => cases hscene

theorem huntCadence_range (g : Geometry) (pos : ℤ) (sweep : ℕ) (h : c.InRange) :
    (huntCadence g pos c).1.InRange ∧
      SlotInRange sweep (huntCadence g pos c).1 (huntCadence g pos c).2 := by
  unfold huntCadence
  split
  · rename_i k hk
    exact ⟨⟨h.cursor, h.left⟩, burstIndexAt_lt hk⟩
  · split_ifs
    · exact ⟨⟨h.cursor, h.left⟩, show sceneSteps - 1 < sceneSteps by decide⟩
    · have hcursor := h.cursor
      exact ⟨⟨Nat.mod_lt _ (by decide), h.left⟩, by dsimp only; omega, by dsimp only; omega⟩
    · exact ⟨⟨h.cursor, h.left⟩, show 0 < sceneSteps by decide⟩
    · exact ⟨⟨h.cursor, h.left⟩, trivial⟩
    · exact ⟨h, trivial⟩

theorem lockedCadence_range (t : MasterTunables) (g : Geometry) (complete : Bool) (pos : ℤ) (sweep : ℕ)
    (h : c.InRange) :
    (lockedCadence t g complete pos c).1.InRange ∧
      SlotInRange sweep (lockedCadence t g complete pos c).1 (lockedCadence t g complete pos c).2 := by
  unfold lockedCadence
  dsimp only
  split_ifs
  · exact ⟨⟨h.cursor, h.left⟩, trivial⟩
  · have hcursor := h.cursor
    exact ⟨⟨Nat.mod_lt _ (by decide), h.left⟩, by dsimp only; omega, by dsimp only; omega⟩
  · split
    · rename_i hscene
      obtain ⟨hstep, hemit⟩ := sceneSlot_range hscene
      exact ⟨⟨h.cursor, h.left⟩, slotInRange_scene hemit hstep⟩
    · exact identityPoll_range g complete sweep ⟨h.cursor, h.left⟩
  · exact identityPoll_range g complete sweep ⟨h.cursor, h.left⟩

theorem controlCadence_range (t : MasterTunables) (sweep : ℕ) (h : m.cad.InRange) :
    (controlCadence t m).1.InRange ∧
      SlotInRange sweep (controlCadence t m).1 (controlCadence t m).2 := by
  unfold controlCadence
  dsimp only
  split_ifs
  · exact lockedCadence_range t m.geo m.identityComplete _ sweep ⟨h.cursor, h.left⟩
  · exact huntCadence_range m.geo _ sweep ⟨h.cursor, h.left⟩

/-! ## Runs -/

/-- The master's clocks are in range. -/
structure ClocksOk (m : Master) : Prop where
  cad : m.cad.InRange
  ordered : m.win.Ordered
  ticks : 0 ≤ m.win.grantTicks

theorem ClocksOk.congr {m' : Master} (h : ClocksOk m) (hcad : m'.cad = m.cad) (hwin : m'.win = m.win) :
    ClocksOk m' := by
  refine ⟨?_, ?_, ?_⟩
  · rw [hcad]
    exact h.cad
  · rw [hwin]
    exact h.ordered
  · rw [hwin]
    exact h.ticks

theorem ClocksOk.enterProbing (h : ClocksOk m) : ClocksOk (enterProbing m) := by
  unfold Libreac.enterProbing masterForgetBox
  dsimp only
  have hring : 0 < chanmapRing := by decide
  split_ifs
  · exact ⟨⟨hring, h.cad.left⟩, h.ordered, h.ticks⟩
  · exact ⟨⟨hring, h.cad.left⟩, h.ordered, h.ticks⟩

theorem ClocksOk.enterGranting (h : ClocksOk m) (tx : HeadampTx) (src : Mac) (blk : Option Block) :
    ClocksOk (enterGranting tx m src blk) := by
  obtain ⟨rows, -, -, heq⟩ := enterGranting_eq tx m src blk
  rw [heq]
  exact ⟨h.cad, le_refl _, le_refl _⟩

theorem ClocksOk.enterEstablished (h : ClocksOk m) : ClocksOk (enterEstablished m) := by
  have hring : 0 < chanmapRing := by decide
  exact ⟨⟨hring, le_refl _, Int.natCast_nonneg _⟩, h.ordered, h.ticks⟩

theorem ClocksOk.started (h : ClocksOk m) : ClocksOk m.started := by
  unfold Master.started
  split_ifs
  · exact h.enterProbing
  · exact h

theorem ClocksOk.heard {m₁ : Master} (h : ClocksOk m) (h₁ : Heard m m₁) : ClocksOk m₁ := by
  obtain ⟨seen, lc, rfl⟩ := h₁
  exact h.started.congr rfl rfl

theorem ClocksOk.ticked {m₀ : Master} (h : ClocksOk m) (h₀ : Ticked m m₀) : ClocksOk m₀ := by
  obtain ⟨seen, tick, rfl⟩ := h₀
  exact h.started.congr rfl rfl

theorem ClocksOk.sceneAccount (h : ClocksOk m) (tx : HeadampTx) (emit : MasterEmit)
    (hs : m.state = .probing ∨ m.state = .established) : ClocksOk (sceneAccount tx m emit) := by
  have hmove := sceneAccount_move tx emit hs
  generalize Libreac.sceneAccount tx m emit = m' at hmove
  cases hmove with
  | none => exact h
  | opened | closed | dropped => exact h.congr rfl rfl
  | released =>
    refine ClocksOk.enterGranting ?_ ..
    exact h.congr rfl rfl
  | bye =>
    refine ClocksOk.enterProbing ?_
    exact h.congr rfl rfl

theorem ClocksOk.rxMove {m' : Master} {ev : RxEvent} {src : Mac} {blk : Option Block} {r : Bool}
    (h : ClocksOk m) (hmove : RxMove tx m ev src blk m' r) : ClocksOk m' := by
  cases hmove with
  | refused => exact h
  | stay _ h₁ => exact h.heard h₁
  | held h₁ => exact (h.heard h₁).congr rfl rfl
  | latch h₁ => exact (h.heard h₁).enterGranting ..
  | relatch h₁ =>
    refine ClocksOk.enterGranting ?_ ..
    exact (h.heard h₁).congr rfl rfl
  | accept _ h₁ =>
    refine ClocksOk.enterEstablished ?_
    exact (h.heard h₁).congr rfl rfl
  | bye _ h₁ =>
    refine ClocksOk.enterProbing ?_
    exact (h.heard h₁).congr rfl rfl

theorem ClocksOk.nextMove {m' : Master} (h : ClocksOk m) (hstride : m.geo.grantStride = 12)
    (hmove : NextMove t tx m m' s) : ClocksOk m' := by
  cases hmove with
  | hunt h₀ hs hc =>
    have hin := (controlCadence_range t 0 (h.ticked h₀).cad).1
    rw [hc] at hin
    refine ClocksOk.sceneAccount ?_ tx _ (.inl hs)
    exact ⟨hin, (h.ticked h₀).ordered, (h.ticked h₀).ticks⟩
  | grant h₀ _ _ hw =>
    obtain ⟨hin, hord, hticks, -⟩ := declaredSlot_range t ((Continues.ticked h₀).geo ▸ hstride)
      (h.ticked h₀).ordered (h.ticked h₀).ticks (h.ticked h₀).cad
    rw [hw] at hin hord hticks
    refine ⟨hin, ?_, ?_⟩
    · exact le_trans hord (by simp [Window.tick])
    · exact le_trans hticks (by simp [Window.tick])
  | delivered h₀ _ _ hw =>
    obtain ⟨hin, hord, hticks, -⟩ := declaredSlot_range t ((Continues.ticked h₀).geo ▸ hstride)
      (h.ticked h₀).ordered (h.ticked h₀).ticks (h.ticked h₀).cad
    rw [hw] at hin hord hticks
    refine ClocksOk.enterEstablished ⟨hin, ?_, ?_⟩
    · exact le_trans hord (by simp [Window.tick])
    · exact le_trans hticks (by simp [Window.tick])
  | wait h₀ _ _ hw =>
    have hin := (undeclaredSlot_range 0 (h.ticked h₀).cad).1
    rw [hw] at hin
    refine ⟨hin, ?_, ?_⟩
    · exact le_trans (h.ticked h₀).ordered (by simp [Window.tick])
    · exact le_trans (h.ticked h₀).ticks (by simp [Window.tick])
  | boxUnknown h₀ _ _ hw =>
    have hin := (undeclaredSlot_range 0 (h.ticked h₀).cad).1
    rw [hw] at hin
    refine ClocksOk.enterProbing ⟨hin, ?_, ?_⟩
    · exact le_trans (h.ticked h₀).ordered (by simp [Window.tick])
    · exact le_trans (h.ticked h₀).ticks (by simp [Window.tick])
  | locked h₀ hs hc =>
    have hin := (controlCadence_range t 0 (h.ticked h₀).cad).1
    rw [hc] at hin
    refine ClocksOk.sceneAccount ?_ tx _ (.inr hs)
    exact ⟨hin, (h.ticked h₀).ordered, (h.ticked h₀).ticks⟩
  | lost h₀ hs hc =>
    have hin := (controlCadence_range t 0 (h.ticked h₀).cad).1
    rw [hc] at hin
    refine ClocksOk.congr (ClocksOk.enterProbing ⟨hin, ?_, ?_⟩) rfl rfl
    · exact (h.ticked h₀).ordered
    · exact (h.ticked h₀).ticks

/-- What holds of the master between any two calls. -/
structure StampInv (m : Master) : Prop where
  clocks : ClocksOk m
  stride : m.geo.grantStride = 12
  sweep : m.SweepOk
  advert : AnnounceOk m

theorem StampInv.step (t : MasterTunables) (h : StampInv m) (i : HeadampTx × MasterInput) :
    StampInv (masterStep t m i).1 := by
  have hcont := Continues.step t m i
  refine ⟨?_, hcont.geo ▸ h.stride, hcont.sweep h.sweep, h.advert.step i⟩
  obtain ⟨tx, i⟩ := i
  cases i with
  | rx ev src blk => exact h.clocks.rxMove (masterRx_move tx m ev src blk)
  | next => exact h.clocks.nextMove h.stride (masterNext_move t tx m)
  | regrant => exact h.clocks.enterGranting ..
  | setHeadampSrc present =>
    obtain ⟨rows, -, -, heq⟩ := masterSetHeadampSrc_eq tx m present
    simp only [masterStep, heq]
    exact h.clocks.congr rfl rfl
  | setBox inCh outCh base =>
    rcases masterSetBox_cases tx m inCh outCh base with heq | ⟨a, rows, heq, -⟩
    · simp only [masterStep, heq]
      exact h.clocks
    · simp only [masterStep, heq]
      unfold Master.declared
      by_cases hrestart : m.hasBox = false ∧ m.state = .granting
      · simp only [hrestart, and_self, if_true]
        exact ⟨⟨h.clocks.cad.cursor, h.clocks.cad.left⟩, le_refl _, le_refl _⟩
      · simp only [hrestart, if_false]
        exact ⟨h.clocks.cad, h.clocks.ordered, h.clocks.ticks⟩

theorem stampInv_init (t : MasterTunables) (placeholder : SceneBody) (src : Mac)
    (cfg : Option ConsoleCfg) (fps : ℤ) : StampInv (masterInit t placeholder src cfg fps) := by
  have hadvert := announceOk_init t placeholder src cfg fps
  have hsweep := sweepOk_init t placeholder src cfg fps
  obtain ⟨blk, desc, heq⟩ := masterInit_eq t placeholder src cfg fps
  refine ⟨?_, ?_, hsweep, hadvert⟩
  · have hring : 0 < chanmapRing := by decide
    rw [heq]
    exact ⟨⟨hring, le_refl _, Int.natCast_nonneg _⟩, le_refl _, le_refl _⟩
  · rw [heq]
    rfl

/-! ## The slot and the tables it leaves -/

/-- No move of a slot takes away the table its index is looked up in. -/
theorem NextMove.slot_range {m' : Master} (hmove : NextMove t tx m m' s) (h : ClocksOk m)
    (hstride : m.geo.grantStride = 12) : ∃ c, SlotInRange m'.grantBurst.length c s := by
  cases hmove with
  | hunt h₀ hs hc =>
    have hslot := fun n => (controlCadence_range t n (h.ticked h₀).cad).2
    rw [hc] at hslot
    exact ⟨_, hslot _⟩
  | grant h₀ _ _ hw =>
    obtain ⟨-, -, -, hslot⟩ := declaredSlot_range t ((Continues.ticked h₀).geo ▸ hstride)
      (h.ticked h₀).ordered (h.ticked h₀).ticks (h.ticked h₀).cad
    rw [hw] at hslot
    exact ⟨_, hslot⟩
  | delivered h₀ _ _ hw =>
    obtain ⟨-, -, -, hslot⟩ := declaredSlot_range t ((Continues.ticked h₀).geo ▸ hstride)
      (h.ticked h₀).ordered (h.ticked h₀).ticks (h.ticked h₀).cad
    rw [hw] at hslot
    exact ⟨_, hslot⟩
  | wait h₀ _ _ hw =>
    have hslot := fun n => (undeclaredSlot_range n (h.ticked h₀).cad).2
    rw [hw] at hslot
    exact ⟨_, hslot _⟩
  | boxUnknown h₀ _ _ hw =>
    have hslot := fun n => (undeclaredSlot_range n (h.ticked h₀).cad).2
    rw [hw] at hslot
    exact ⟨_, hslot _⟩
  | locked h₀ hs hc =>
    have hslot := fun n => (controlCadence_range t n (h.ticked h₀).cad).2
    rw [hc] at hslot
    exact ⟨_, hslot _⟩
  | lost h₀ hs hc =>
    have hslot := fun n => (controlCadence_range t n (h.ticked h₀).cad).2
    rw [hc] at hslot
    exact ⟨_, hslot _⟩

theorem enterProbing_sceneStep (m : Master) : (enterProbing m).cad.sceneStep = m.cad.sceneStep := by
  unfold enterProbing masterForgetBox
  dsimp only
  split_ifs <;> rfl

theorem SlotInRange.step {sweep : ℕ} (h : SlotInRange sweep c s) (hscene : s.emit.isScene = true) :
    c.sceneStep < sceneSteps := by
  unfold SlotInRange at h
  cases hemit : s.emit with
  | sceneHead | sceneChunk | sceneTail =>
    rw [hemit] at h
    exact h
  | filler | grant | identityPoll | enroll | chanmap | announce =>
    rw [hemit] at hscene
    cases hscene

/-- The step a scene slot selected is still selected when the slot is over. -/
theorem slotByState_sceneStep (hidle : m.state ≠ .idle) (h : m.cad.InRange)
    (hscene : (slotByState t tx m).2.emit.isScene = true) :
    (slotByState t tx m).1.cad.sceneStep < sceneSteps := by
  have hslot := (controlCadence_range t 0 h).2
  unfold slotByState at hscene ⊢
  cases hs : m.state with
  | idle => exact absurd hs hidle
  | probing =>
    rw [hs] at hscene
    exact hslot.step hscene
  | granting =>
    rw [hs] at hscene
    dsimp only at hscene
    unfold slotGranting at hscene
    exfalso
    by_cases hb : m.hasBox = true
    · have hno := declaredSlot_not_scene t m
      rw [if_pos hb] at hscene
      dsimp only at hscene
      split_ifs at hscene
      · exact absurd hscene (by rw [hno]; decide)
      · exact absurd hscene (by rw [hno]; decide)
    · have hno := undeclaredSlot_not_scene m
      rw [if_neg hb] at hscene
      dsimp only at hscene
      split_ifs at hscene
      · exact absurd hscene (by rw [hno]; decide)
      · exact absurd hscene (by rw [hno]; decide)
  | established =>
    rw [hs] at hscene
    dsimp only at hscene ⊢
    unfold slotEstablished at hscene ⊢
    dsimp only at hscene ⊢
    split_ifs at hscene ⊢ with hlost
    · have hedge : fsmStep m.state .linkLost = .go .probing .peerGone true := by
        rw [hs]
        rfl
      rw [hedge]
      refine lt_of_eq_of_lt (enterProbing_sceneStep _) ?_
      exact hslot.step hscene
    · exact hslot.step hscene

/-- A scene slot leaves the step it announces. -/
theorem masterNext_sceneBlk (h : ClocksOk m) (hscene : (masterNext t tx m).2.emit.isScene = true) :
    (masterNext t tx m).1.sceneBlk.kind = .sceneTransfer := by
  have h₀ := presenceDecay_ticked tx m
  have heq : masterNext t tx m = slotEnd tx
      (slotByState t tx (presenceDecay (promoteIdle tx { m with counter := m.counter + 1 }))) := rfl
  rw [heq] at hscene ⊢
  generalize presenceDecay (promoteIdle tx { m with counter := m.counter + 1 }) = m₀ at h₀ hscene
  have hidle : m₀.state ≠ .idle := by
    obtain ⟨seen, tick, rfl⟩ := h₀
    exact started_state_ne m
  have hstep := slotByState_sceneStep hidle (h.ticked h₀).cad hscene
  unfold slotEnd at hscene ⊢
  dsimp only at hscene ⊢
  rw [sceneAccount_sceneBlk, if_pos hscene]
  obtain ⟨blk, hblk, hkind⟩ := buildSceneStep_kind (slotByState t tx m₀).1.scene hstep
  unfold scenePrepare
  rw [hblk]
  exact hkind

/-- A slot whose index is in range is stamped as what it stands for. -/
theorem masterStamp_standsFor (h : AnnounceOk m) (hsweep : m.SweepOk)
    (hrange : SlotInRange m.grantBurst.length c s)
    (hscene : s.emit.isScene = true → m.sceneBlk.kind = .sceneTransfer) :
    ∃ b, masterStamp m s = some b ∧ (s.emit ≠ .filler → b.cksumOk ∧ b.standsFor s.emit) := by
  obtain ⟨hannounce, -, henroll, hchanmap, -⟩ := h
  unfold SlotInRange at hrange
  unfold masterStamp
  cases hemit : s.emit with
  | filler => exact ⟨_, rfl, fun hne => absurd rfl hne⟩
  | sceneHead | sceneChunk | sceneTail =>
    refine ⟨_, rfl, fun _ => ⟨stampBlockCksum_cksumOk _, ?_⟩⟩
    exact (kind_stampBlockCksum _).trans (hscene (by rw [hemit]; rfl))
  | grant =>
    rw [hemit] at hrange
    obtain ⟨hnonneg, hlt⟩ := hrange
    have hidx : s.idx.toNat < m.grantBurst.length := by omega
    dsimp only
    rw [if_neg (by omega), List.getElem?_eq_getElem hidx]
    refine ⟨_, rfl, fun _ => ⟨stampBlockCksum_cksumOk _, ?_⟩⟩
    have hbox : m.hasBox = true := by
      by_contra hno
      rw [hsweep.2 (Bool.of_not_eq_true hno)] at hidx
      cases hidx
    unfold Template.standsFor
    rw [kind_stampBlockCksum]
    exact (hsweep.1 hbox).kind (List.getElem_mem hidx)
  | identityPoll =>
    rw [hemit] at hrange
    obtain ⟨hnonneg, hlt⟩ := hrange
    have hidx : s.idx.toNat < grantGroupb.length := by
      have hlen : grantGroupb.length = groupbLen := rfl
      omega
    dsimp only
    rw [if_neg (by omega), identityPollBlock, List.getElem?_eq_getElem hidx]
    refine ⟨_, rfl, fun _ => ⟨stampBlockCksum_cksumOk _, ?_⟩⟩
    have hrows : ∀ r ∈ grantGroupb, r.byte 0 = 0xcd ∧ r.byte 1 = 0xea ∧ r.byte 2 = 0x04 ∧
        r.byte 3 = 0x03 ∧ r.byte 16 = 0x12 ∧ r.byte 17 = 0x11 ∧ r.byte 18 = 0x05 ∧
        r.byte 19 = 0x00 := by decide
    unfold Template.standsFor Template.identityRequest
    rw [byte_stampBlockCksum _ (by omega), byte_stampBlockCksum _ (by omega),
      byte_stampBlockCksum _ (by omega), byte_stampBlockCksum _ (by omega),
      byte_stampBlockCksum _ (by omega), byte_stampBlockCksum _ (by omega),
      byte_stampBlockCksum _ (by omega), byte_stampBlockCksum _ (by omega)]
    exact hrows _ (List.getElem_mem hidx)
  | enroll =>
    refine ⟨_, rfl, fun _ => ⟨stampBlockCksum_cksumOk _, ?_⟩⟩
    unfold Template.standsFor
    rw [kind_stampBlockCksum, henroll, kind_enrollBlkOf]
  | chanmap =>
    rw [hemit] at hrange
    obtain ⟨hnonneg, hlt⟩ := hrange
    have hidx : s.idx.toNat < (genChanmap m.cfg).length := by
      simp only [genChanmap, List.length_map, List.length_range]
      omega
    dsimp only
    rw [if_neg (by omega), hchanmap, List.getElem?_eq_getElem hidx]
    refine ⟨_, rfl, fun _ => ⟨stampBlockCksum_cksumOk _, ?_⟩⟩
    unfold Template.standsFor
    rw [kind_stampBlockCksum]
    simp only [genChanmap, List.getElem_map]
    exact kind_chanmapFrame ..
  | announce =>
    refine ⟨_, rfl, fun _ => ⟨stampBlockCksum_cksumOk _, ?_⟩⟩
    unfold Template.standsFor
    rw [kind_stampBlockCksum, hannounce, kind_genCfea]

/-! ## The stamped frame -/

theorem checksumVerify_overwrite {frame : List UInt8} (hlong : 50 ≤ frame.length) {b : Template}
    (hb : b.cksumOk) : checksumVerify (overwrite frame 16 b.toList) = true := by
  have hsize : b.toList.length = 34 := b.length_toList
  unfold Template.cksumOk at hb
  unfold checksumVerify
  rw [beq_iff_eq, byteSum_congr fun i hi => ?_, hb]
  have hat := @byteAt_overwrite frame b.toList 16 (2 + i) (by omega) (by omega)
  rw [toList_getD b (by omega), ← Nat.add_assoc] at hat
  exact hat

/-- What a stamp makes of a frame buffer. -/
structure Stamped (s : Slot) (frame out : List UInt8) : Prop where
  length : out.length = frame.length
  rest : ∀ i, i < (if s.emit = .filler then 18 else 16) ∨ 50 ≤ i → byteAt out i = byteAt frame i
  closes : s.emit ≠ .filler → checksumVerify out = true
  reads : s.emit ≠ .filler → isReac frame = true → FrameReads out s.emit

theorem masterStampFrame_stamped {b : Template} (hb : masterStamp m s = some b)
    (hok : s.emit ≠ .filler → b.cksumOk ∧ b.standsFor s.emit) {frame : List UInt8}
    (hlong : 50 ≤ frame.length) : ∃ out, masterStampFrame m s frame = some out ∧ Stamped s frame out := by
  have hsize : b.toList.length = 34 := b.length_toList
  unfold masterStampFrame
  rw [hb, Option.map_some]
  by_cases hfiller : s.emit = .filler
  · have hdrop : (b.toList.drop 2).length = 32 := by simp
    rw [if_pos hfiller]
    refine ⟨_, rfl, ?_, ?_, fun hne => absurd hfiller hne, fun hne => absurd hfiller hne⟩
    · exact length_overwrite (by omega)
    · intro i hi
      rw [if_pos hfiller] at hi
      rcases hi with hlt | hge
      · exact byteAt_overwrite_of_lt hlt (by omega)
      · exact byteAt_overwrite_of_ge (by omega) (by omega)
  · obtain ⟨hsum, hstands⟩ := hok hfiller
    rw [if_neg hfiller]
    refine ⟨_, rfl, ?_, ?_, fun _ => ?_, fun _ hreac => ?_⟩
    · exact length_overwrite (by omega)
    · intro i hi
      rw [if_neg hfiller] at hi
      rcases hi with hlt | hge
      · exact byteAt_overwrite_of_lt hlt (by omega)
      · exact byteAt_overwrite_of_ge (by omega) (by omega)
    · exact checksumVerify_overwrite hlong hsum
    · exact (carriesBlock_overwrite hlong (of_decide_eq_true hreac) b).reads hstands

/-- Every emission of a slot stamps, whatever the slot itself did to the master, and the frame is of
the emission's own kind. -/
theorem master_emission_stamps (t : MasterTunables) (placeholder : SceneBody) (src : Mac)
    (cfg : Option ConsoleCfg) (fps : ℤ) (is : List (HeadampTx × MasterInput)) (log : List MasterEvent)
    (e : MasterEvent) (hstep : (masterMachine t).StepOf (masterInit t placeholder src cfg fps) is log e)
    (s : Slot) (hout : e.out = some s) (frame : List UInt8) (hlong : 50 ≤ frame.length) :
    ∃ out, masterStampFrame e.post s frame = some out ∧ Stamped s frame out := by
  obtain ⟨post, he⟩ := hstep
  obtain ⟨is₁, i, is₂, -, -, rfl⟩ := Reactive.Machine.trace_split _ he
  obtain hinv := (masterMachine t).run_invariant (L := fun _ _ => True)
    (stampInv_init t placeholder src cfg fps) (fun m i h _ => h.step t i) is₁ (fun _ _ _ => trivial)
  generalize (masterMachine t).run (masterInit t placeholder src cfg fps) is₁ = m at hinv hout
  have hnext := hinv.step t i
  obtain ⟨tx, i⟩ := i
  cases i with
  | next =>
    obtain rfl := Option.some.inj hout
    obtain ⟨c, hrange⟩ := (masterNext_move t tx m).slot_range hinv.clocks hinv.stride
    obtain ⟨b, hb, hok⟩ := masterStamp_standsFor hnext.advert hnext.sweep hrange
      (masterNext_sceneBlk hinv.clocks)
    exact masterStampFrame_stamped hb hok hlong
  | rx | regrant | setHeadampSrc | setBox => cases hout

/-- The frames the pacer has stamped are REAC frames. -/
theorem isReac_downstreamBuild (planar : Planes) (nch ns : ℤ) (counter : UInt16) (src : Mac) :
    isReac (downstreamBuild planar nch ns counter src) = true := by
  have hhead := length_downstreamHead counter src
  have hat : ∀ i < 50, byteAt (downstreamBuild planar nch ns counter src) i =
      byteAt (downstreamHead counter src) i := by
    intro i hi
    unfold downstreamBuild byteAt
    rw [List.append_assoc, List.getD_eq_getElem?_getD, List.getElem?_append_left (by omega),
      List.getD_eq_getElem?_getD]
  unfold isReac
  rw [hat 12 (by omega), hat 13 (by omega)]
  exact decide_eq_true (downstreamHead_type counter src)

/-- The first slot of a desk opens the scene transfer, in the frame the pacer built for it. -/
theorem desk_first_slot_stamps :
    ∃ out, masterStampFrame (masterNext {} headampTxInit deskMaster).1 (.plain .sceneHead)
        (downstreamBuild none 40 12 0 noMac) = some out ∧
      Stamped (.plain .sceneHead) (downstreamBuild none 40 12 0 noMac) out ∧
      (ctrlParse out).kind = .sceneTransfer := by
  have hslot : (masterNext {} headampTxInit deskMaster).2 = .plain .sceneHead := by decide +kernel
  obtain ⟨out, hstamp, hout⟩ := master_emission_stamps {} (Vector.replicate 8904 0) (Vector.replicate 6 1)
    none 4000 [(headampTxInit, .next)] [] _ ((masterMachine {}).stepOf_last _ [] _) _
    (congrArg some hslot) (downstreamBuild none 40 12 0 noMac)
    (by rw [length_downstreamBuild]; decide)
  exact ⟨out, hstamp, hout, hout.reads nofun (isReac_downstreamBuild ..)⟩

end Libreac
