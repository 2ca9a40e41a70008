import Libreac.Proofs.HeadampProofs

/-!
# Proofs: phantom on the wire

Two things put a head-amp record on the wire. The overlay reads the table in the slot it sends in.
The rows of a grant window were built from the table when the window was opened, or its box
declared, and leave up to a dwell and a burst later. So a phantom-on row is right as long as no
phantom-off is applied between the two (`PhantomStays`).
-/

namespace Libreac

variable {env : Env} {p : Pacer} {m : Master} {t : MasterTunables} {tx tx' : HeadampTx}

/-- The table asks for phantom power on the channel. -/
def HeadampTx.phantomOn (t : HeadampTx) (ch : ℕ) : Prop :=
  headampTxEffective (some t) ch headampPhantom = 1

/-- The channel is one of the allocation. -/
def GrantAlloc.Has (a : GrantAlloc) (ch : ℕ) : Prop := a.base ≤ ch ∧ ch < a.base + a.width

/-- A row that switches phantom power on for the channel is still to leave in the open window. -/
def Master.onRowAhead (m : Master) (ch : ℕ) : Prop :=
  m.state = .granting ∧ m.hasBox = true ∧ ∃ (k : ℕ) (row : Template),
    m.grantBurst[k]? = some row ∧ headampRecord row = some (ch, headampPhantom, 1) ∧
      m.win.grantTicks ≤ m.grantAnchor + 1 + m.geo.grantStride * k

/-- The next slot ends the scene transfer that an edge is held for, and so may open a window. -/
def Master.opensHeld (m : Master) : Prop :=
  m.joinHeld = true ∧ m.sceneInflight = true ∧ m.cad.cyclePos = m.geo.sub02Off

/-! ## Sweeps of the table in force -/

/-- The sweep on hand is the one the table would give now. -/
def Master.Swept (tx : HeadampTx) (m : Master) : Prop :=
  m.hasBox = true → grantBuildSweep m.alloc (some tx) = some m.grantBurst

theorem rebuildGrantSweep_swept {m' : Master} {base inCh : ℤ} (hsrc : m.headampSrc = true)
    (h : rebuildGrantSweep tx m base inCh = some m') :
    grantBuildSweep m'.alloc (some tx) = some m'.grantBurst := by
  unfold rebuildGrantSweep at h
  rw [hsrc, if_pos rfl] at h
  cases ha : grantAllocate base inCh with
  | none =>
    rw [ha] at h
    cases h
  | some a =>
    rw [ha] at h
    dsimp only at h
    cases hrows : grantBuildSweep a (some tx) with
    | none =>
      rw [hrows] at h
      cases h
    | some rows =>
      rw [hrows] at h
      obtain rfl := Option.some.inj h
      exact hrows

theorem enterGranting_swept (tx : HeadampTx) (hsrc : m.headampSrc = true) (src : Mac)
    (blk : Option Block) : (enterGranting tx m src blk).Swept tx := by
  intro hb
  have halloc : (enterGranting tx m src blk).alloc = m.alloc := by
    obtain ⟨rows, -, -, heq⟩ := enterGranting_eq tx m src blk
    rw [heq]
  rw [halloc]
  have hpos : 0 < m.alloc.width := by
    rw [hasBox_iff, halloc] at hb
    exact hb
  unfold enterGranting refreshGrantSweep rebuildGrantSweep
  dsimp only
  rw [grantAllocate_self hpos, hsrc, if_pos rfl]
  dsimp only
  rw [grantBuildSweep_eq hpos]
  rfl

theorem enterGranting_headampSrc (tx : HeadampTx) (m : Master) (src : Mac) (blk : Option Block) :
    (enterGranting tx m src blk).headampSrc = m.headampSrc := by
  obtain ⟨rows, -, -, heq⟩ := enterGranting_eq tx m src blk
  rw [heq]

theorem enterProbing_headampSrc (m : Master) : (enterProbing m).headampSrc = m.headampSrc := by
  unfold enterProbing masterForgetBox
  dsimp only
  split_ifs <;> rfl

theorem started_headampSrc (m : Master) : m.started.headampSrc = m.headampSrc := by
  unfold Master.started
  split_ifs
  · exact enterProbing_headampSrc m
  · rfl

theorem Heard.headampSrc {m₁ : Master} (h : Heard m m₁) : m₁.headampSrc = m.headampSrc := by
  obtain ⟨seen, lc, rfl⟩ := h
  exact started_headampSrc m

theorem Ticked.headampSrc {m₀ : Master} (h : Ticked m m₀) : m₀.headampSrc = m.headampSrc := by
  obtain ⟨seen, tick, rfl⟩ := h
  exact started_headampSrc m

/-- A declaration leaves the master alone, or leaves it with a sweep of the table in force. -/
theorem rxDeclare_swept (hsrc : p.master.headampSrc = true) (frame : List UInt8) :
    (rxDeclare p frame).master.headampSrc = true ∧
      ((rxDeclare p frame).master = p.master ∨ (rxDeclare p frame).master.Swept p.headamp) := by
  have hset : ∀ ports : BoxPorts,
      (masterSetBox p.headamp p.master ports.inCh ports.outCh ports.headampBase).headampSrc = true ∧
      (masterSetBox p.headamp p.master ports.inCh ports.outCh ports.headampBase = p.master ∨
        (masterSetBox p.headamp p.master ports.inCh ports.outCh ports.headampBase).Swept
          p.headamp) := by
    intro ports
    unfold masterSetBox
    cases hrows : rebuildGrantSweep p.headamp p.master ports.headampBase ports.inCh with
    | none => exact ⟨hsrc, .inl rfl⟩
    | some m' =>
      have hswept := rebuildGrantSweep_swept hsrc hrows
      have hsrc' : m'.headampSrc = true := by
        unfold rebuildGrantSweep at hrows
        split at hrows
        · cases hrows
        · split at hrows
          · cases hrows
          · rw [← Option.some.inj hrows]
            exact hsrc
      dsimp only
      by_cases hrestart : p.master.hasBox = false ∧ p.master.state = .granting
      · rw [if_pos hrestart]
        exact ⟨hsrc', .inr fun _ => hswept⟩
      · rw [if_neg hrestart]
        exact ⟨hsrc', .inr fun _ => hswept⟩
  obtain ⟨m', box, din, dout, hdecl, hm⟩ := rxDeclare_eq p frame
  rw [hdecl]
  rcases hm with rfl | ⟨ports, -, -, rfl, -⟩
  · exact ⟨hsrc, .inl rfl⟩
  · unfold declareBox
    dsimp only
    split_ifs
    · exact ⟨(enterGranting_headampSrc ..).trans (hset ports).1,
        .inr (enterGranting_swept _ (hset ports).1 _ _)⟩
    · exact hset ports

/-! ## The window -/

/-- Every phantom-on row that is still to leave agrees with the table. -/
structure Armed (tx : HeadampTx) (m : Master) : Prop where
  table : m.headampSrc = true
  stride : m.geo.grantStride = 12
  dwell : m.geo.DwellOk
  sweep : m.SweepOk
  window : m.state = .granting → m.hasBox = true → ∃ sent, WindowOk m sent
  live : ∀ ch, m.onRowAhead ch → tx.phantomOn ch

/-- A sweep of the table in force has no other phantom-on rows than the table asks for. -/
theorem Master.Swept.live (h : m.Swept tx) {ch : ℕ} (hrow : m.onRowAhead ch) :
    tx.phantomOn ch ∧ m.alloc.Has ch := by
  obtain ⟨-, hb, k, row, hk, hrec, -⟩ := hrow
  obtain ⟨hvalue, hhas⟩ := sweep_record (h hb) (List.mem_of_getElem? hk) hrec
  exact ⟨hvalue.symm, hhas⟩

theorem Armed.of_idle (htable : m.headampSrc = true) (hstride : m.geo.grantStride = 12)
    (hdwell : m.geo.DwellOk) (hsweep : m.SweepOk) (hs : m.state ≠ .granting) : Armed tx m := by
  refine ⟨htable, hstride, hdwell, hsweep, fun hg => absurd hg hs, ?_⟩
  intro ch hrow
  exact absurd hrow.1 hs

theorem Armed.of_fresh (htable : m.headampSrc = true) (hstride : m.geo.grantStride = 12)
    (hdwell : m.geo.DwellOk) (hsweep : m.SweepOk) (hfresh : m.Fresh)
    (hlive : ∀ ch, m.onRowAhead ch → tx.phantomOn ch) : Armed tx m :=
  ⟨htable, hstride, hdwell, hsweep, fun _ _ => ⟨[], WindowOk.fresh hfresh hdwell⟩, hlive⟩

theorem onRowAhead_congr {m' : Master} (hstate : m'.state = m.state) (hgeo : m'.geo = m.geo)
    (hticks : m'.win.grantTicks = m.win.grantTicks)
    (hended : m'.win.dwellEndedTick = m.win.dwellEndedTick) (halloc : m'.alloc = m.alloc)
    (hrows : m'.grantBurst = m.grantBurst) {ch : ℕ} (h : m'.onRowAhead ch) : m.onRowAhead ch := by
  unfold Master.onRowAhead Master.grantAnchor Master.hasBox at h ⊢
  rwa [hstate, halloc, hrows, hticks, hgeo, hended] at h

/-- The same rows in the same window. -/
theorem Armed.congr {m' : Master} (h : Armed tx m) (htable : m'.headampSrc = m.headampSrc)
    (hstate : m'.state = m.state) (hgeo : m'.geo = m.geo)
    (hticks : m'.win.grantTicks = m.win.grantTicks)
    (hended : m'.win.dwellEndedTick = m.win.dwellEndedTick) (halloc : m'.alloc = m.alloc)
    (hrows : m'.grantBurst = m.grantBurst) : Armed tx m' := by
  refine ⟨htable.trans h.table, hgeo ▸ h.stride, hgeo ▸ h.dwell, ?_, ?_, ?_⟩
  · have hsweep := h.sweep
    unfold Master.SweepOk Master.hasBox at hsweep ⊢
    rwa [halloc, hrows]
  · intro hs hb
    have hb' : m.hasBox = true := by
      unfold Master.hasBox at hb ⊢
      rwa [halloc] at hb
    obtain ⟨sent, ok⟩ := h.window (hstate.symm.trans hs) hb'
    exact ⟨sent, ok.congr hticks hended hgeo (by rw [hrows])⟩
  · intro ch hrow
    exact h.live ch (onRowAhead_congr hstate hgeo hticks hended halloc hrows hrow)

/-- A window just opened has its rows from the table in force. -/
theorem Armed.enterGranting (htable : m.headampSrc = true) (src : Mac) (blk : Option Block)
    (hstride : (enterGranting tx m src blk).geo.grantStride = 12)
    (hdwell : (enterGranting tx m src blk).geo.DwellOk)
    (hsweep : (enterGranting tx m src blk).SweepOk) : Armed tx (enterGranting tx m src blk) := by
  refine .of_fresh ((enterGranting_headampSrc ..).trans htable) hstride hdwell hsweep
    (enterGranting_fresh ..) ?_
  intro ch hrow
  exact ((enterGranting_swept tx htable src blk).live hrow).1

theorem RxMove.armed {m' : Master} {ev : RxEvent} {src : Mac} {blk : Option Block} {r : Bool}
    (h : RxMove tx m ev src blk m' r) (inv : Armed tx m) : Armed tx m' := by
  have hcont := Continues.rxMove h
  have hsweep := hcont.sweep inv.sweep
  have hstride : m'.geo.grantStride = 12 := by rw [hcont.geo]; exact inv.stride
  have hdwell : m'.geo.DwellOk := by rw [hcont.geo]; exact inv.dwell
  cases h with
  | refused => exact inv
  | stay _ h₁ =>
    have hsrc := h₁.headampSrc.trans inv.table
    rcases h₁.cases with ⟨-, hs⟩ | ⟨-, seen, lc, rfl⟩
    · exact .of_idle hsrc hstride hdwell hsweep (by rw [hs]; decide)
    · exact inv.congr rfl rfl rfl rfl rfl rfl rfl
  | held h₁ hs =>
    have hsrc := h₁.headampSrc.trans inv.table
    exact .of_idle hsrc hstride hdwell hsweep (ne_of_eq_of_ne hs (by decide))
  | latch h₁ =>
    have hsrc := h₁.headampSrc.trans inv.table
    exact .enterGranting hsrc _ _ hstride hdwell hsweep
  | @relatch m₁ h₁ _ _ _ _ drop =>
    have hsrc := h₁.headampSrc.trans inv.table
    exact .enterGranting (m := { m₁ with dropReason := drop }) hsrc _ _ hstride hdwell hsweep
  | accept _ h₁ =>
    have hsrc := h₁.headampSrc.trans inv.table
    exact .of_idle hsrc hstride hdwell hsweep (by decide : MasterState.established ≠ .granting)
  | bye _ h₁ =>
    have hsrc := h₁.headampSrc.trans inv.table
    refine .of_idle ((enterProbing_headampSrc _).trans hsrc) hstride hdwell hsweep ?_
    exact ne_of_eq_of_ne (enterProbing_state _) (by decide)

/-- A declaration that does not open a window leaves the rows of the running one in place, each for
the same channel of the new base or a window restarted. -/
theorem Armed.declare (inv : Armed p.headamp p.master) (frame : List UInt8) :
    Armed p.headamp (rxDeclare p frame).master := by
  have hcont := (rxDeclare_path {} p frame).1.continues
  have hsweep := hcont.sweep inv.sweep
  have hstride : (rxDeclare p frame).master.geo.grantStride = 12 := by rw [hcont.geo]; exact inv.stride
  have hdwell : (rxDeclare p frame).master.geo.DwellOk := by rw [hcont.geo]; exact inv.dwell
  obtain ⟨htable, heq | hswept⟩ := rxDeclare_swept inv.table frame
  · rw [heq]
    exact inv
  refine ⟨htable, hstride, hdwell, hsweep, ?_, fun ch hrow => (hswept.live hrow).1⟩
  intro hs hb
  rcases rxDeclare_master p frame with ⟨-, heq⟩ | ⟨a, rows, -, hrows, ⟨hw, heq⟩ | ⟨-, heq⟩⟩
  · rw [heq] at hs hb ⊢
    exact inv.window hs hb
  · rw [heq] at hs hb hdwell ⊢
    have hgranting : p.master.state = .granting := hs
    have hwidth : a.width = p.master.alloc.width := hw.resolve_right fun h => h.1 hgranting
    have hbox : p.master.hasBox = true := by
      rw [hasBox_iff, ← hwidth]
      exact hrows.length.2
    obtain ⟨sent, ok⟩ := inv.window hgranting hbox
    have hwin : (p.master.declared a rows).win = { p.master.win with enrollPending := true } := by
      simp [Master.declared, hbox]
    refine ⟨sent, ok.congr (by rw [hwin]) (by rw [hwin]) rfl ?_⟩
    show rows.length = _
    rw [hrows.length.1, (inv.sweep.1 hbox).length.1, hwidth]
  · rw [heq] at hdwell ⊢
    exact ⟨[], WindowOk.fresh (enterGranting_fresh ..) hdwell⟩

/-! ## Slots -/

/-- The row a slot of the window carries was ahead of it, and so is every row ahead of the next
slot. -/
theorem declaredSlot_ahead {c : Cadence} {w : Window} {s : Slot} {sent : List ℤ}
    (ok : WindowOk m sent) (hstride : m.geo.grantStride = 12) (hdwell : m.geo.DwellOk)
    (hw : declaredSlot t m = (c, w, s)) :
    (∀ i, s.grantIdx = some i → 0 ≤ i ∧ m.win.grantTicks ≤ m.grantAnchor + 1 + 12 * i) ∧
    (∀ k : ℕ, w.tick.grantTicks ≤ Master.grantAnchor { m with win := w } + 1 + 12 * k →
      m.win.grantTicks ≤ m.grantAnchor + 1 + 12 * k) := by
  obtain ⟨hticks, hended, hidx⟩ :=
    declaredSlot_spec hstride hdwell ok.ticks ok.ended ok.ended_lt hw
  have hanchor : Master.grantAnchor { m with win := w } ≤ m.grantAnchor ∧
      (Master.grantAnchor { m with win := w } = m.grantAnchor ∨
        Master.grantAnchor { m with win := w } = m.win.grantTicks) := by
    have h₀ := ok.ended
    simp only [Master.grantAnchor]
    split_ifs <;> omega
  constructor
  · intro i hi
    rw [hidx, rowDue] at hi
    split_ifs at hi with hdue
    cases hi
    omega
  · intro k hk
    simp only [Window.tick, hticks] at hk
    omega

/-- The change from `tx` to `tx'` takes phantom power from no channel that a row ahead, or a window
the next slot may open, switches it on for. -/
def Master.PhantomKept (m : Master) (tx tx' : HeadampTx) : Prop :=
  ∀ ch, tx.phantomOn ch → ¬ tx'.phantomOn ch →
    ¬ m.onRowAhead ch ∧ ¬ (m.opensHeld ∧ m.alloc.Has ch)

theorem SceneMove.armed {m' : Master} {emit : MasterEmit} (h : SceneMove tx m emit m')
    (hs : m.state = .probing ∨ m.state = .established) (htable : m.headampSrc = true)
    (hstride : m.geo.grantStride = 12) (hdwell : m.geo.DwellOk) (hsweep : m.SweepOk)
    (hopen : emit = .sceneTail → m.sceneInflight = true → m.joinHeld = true →
      ∀ ch, tx.phantomOn ch → m.alloc.Has ch → tx'.phantomOn ch) : Armed tx' m' := by
  have hcont := Continues.sceneMove h
  have hstride' : m'.geo.grantStride = 12 := by rw [hcont.geo]; exact hstride
  have hdwell' : m'.geo.DwellOk := by rw [hcont.geo]; exact hdwell
  have hsweep' := hcont.sweep hsweep
  have hne : m.state ≠ .granting := by
    rcases hs with hs | hs
    · rw [hs]
      decide
    · rw [hs]
      decide
  cases h with
  | none | opened | closed | dropped => exact .of_idle htable hstride' hdwell' hsweep' hne
  | released htail hi hj hf hs' drop =>
    have hsrc : ({ m.completed with joinHeld := false, dropReason := drop } : Master).headampSrc
        = true := htable
    have hswept := enterGranting_swept tx hsrc m.joinSrc (heldBlock m.joinEv m.joinHoldBlk)
    obtain ⟨rows, -, -, heq⟩ := enterGranting_eq tx
      { m.completed with joinHeld := false, dropReason := drop } m.joinSrc
      (heldBlock m.joinEv m.joinHoldBlk)
    have halloc : (enterGranting tx { m.completed with joinHeld := false, dropReason := drop }
        m.joinSrc (heldBlock m.joinEv m.joinHoldBlk)).alloc = m.alloc := by
      rw [heq]
      rfl
    refine .of_fresh ((enterGranting_headampSrc ..).trans hsrc) hstride' hdwell' hsweep'
      (enterGranting_fresh ..) ?_
    intro ch hrow
    obtain ⟨hon, hhas⟩ := hswept.live hrow
    rw [halloc] at hhas
    exact hopen htail hi hj ch hon hhas
  | bye =>
    refine .of_idle ((enterProbing_headampSrc _).trans htable) hstride' hdwell' hsweep' ?_
    exact ne_of_eq_of_ne (enterProbing_state _) (by decide)

theorem onRowAhead_ticked {m₀ : Master} (h₀ : Ticked m m₀) {ch : ℕ} (h : m₀.onRowAhead ch) :
    m.onRowAhead ch := by
  obtain ⟨seen, tick, rfl⟩ := h₀.of_ne_probing (by rw [h.1]; decide)
  exact onRowAhead_congr rfl rfl rfl rfl rfl rfl h

theorem Armed.ticked {m₀ : Master} (inv : Armed tx m) (h₀ : Ticked m m₀) : Armed tx m₀ := by
  have hc := Continues.ticked h₀
  have hsrc := h₀.headampSrc.trans inv.table
  rcases h₀.cases with ⟨-, hp⟩ | ⟨-, seen, tick, rfl⟩
  · refine .of_idle hsrc ?_ ?_ (hc.sweep inv.sweep) ?_
    · rw [hc.geo]
      exact inv.stride
    · rw [hc.geo]
      exact inv.dwell
    · rw [hp]
      decide
  · exact inv.congr rfl rfl rfl rfl rfl rfl rfl

theorem Master.PhantomKept.ticked {m₀ : Master} (h : m.PhantomKept tx tx') (h₀ : Ticked m m₀) :
    m₀.PhantomKept tx tx' := by
  intro ch hon hoff
  obtain ⟨hrow, hheld⟩ := h ch hon hoff
  refine ⟨fun hr => hrow (onRowAhead_ticked h₀ hr), ?_⟩
  rintro ⟨hopen, hhas⟩
  rcases h₀.cases with ⟨hidle, -⟩ | ⟨-, seen, tick, rfl⟩
  · have hinflight := hopen.2.1
    rw [(h₀.freshHunt hidle).inflight] at hinflight
    cases hinflight
  · exact hheld ⟨hopen, hhas⟩

/-- A slot of the cadence, with the accounting behind it. -/
theorem Armed.cadence (inv : Armed tx m) (hkept : m.PhantomKept tx tx') {c : Cadence} {s : Slot}
    (hc : controlCadence t m = (c, s)) {m₁ m' : Master} (hmove : SceneMove tx m₁ s.emit m')
    (hs : m₁.state = .probing ∨ m₁.state = .established) (hgeo : m₁.geo = m.geo)
    (hsrc : m₁.headampSrc = m.headampSrc) (hsweep : m₁.SweepOk) (halloc : m₁.alloc = m.alloc)
    (hinflight : m₁.sceneInflight = m.sceneInflight) (hheld : m₁.joinHeld = m.joinHeld) :
    Armed tx' m' := by
  refine hmove.armed hs (hsrc.trans inv.table) (hgeo ▸ inv.stride) (hgeo ▸ inv.dwell) hsweep ?_
  intro htail hi hj ch hon hhas
  have hpos := (controlCadence_emit t m).2.2 (by rw [hc]; exact htail)
  rw [halloc] at hhas
  by_contra hoff
  exact (hkept ch hon hoff).2 ⟨⟨hheld.symm.trans hj, hinflight.symm.trans hi, hpos⟩, hhas⟩

/-- A slot of a running window: the row it carries and the rows still ahead were ahead before. -/
theorem Armed.window_slot (inv : Armed tx m) (hkept : m.PhantomKept tx tx')
    (hs : m.state = .granting) (hb : m.hasBox = true) {c : Cadence} {w : Window} {s : Slot}
    (hw : declaredSlot t m = (c, w, s)) :
    (Master.grantDelivered { m with cad := c, win := w.tick } = false →
      Armed tx' { m with cad := c, win := w.tick }) ∧
    (∀ i row ch, s.grantIdx = some i → m.grantBurst[i.toNat]? = some row →
      headampRecord row = some (ch, headampPhantom, 1) → tx'.phantomOn ch) := by
  obtain ⟨sent, ok⟩ := inv.window hs hb
  obtain ⟨hsent, hrest⟩ := declaredSlot_ahead ok inv.stride inv.dwell hw
  have hahead : ∀ (k : ℕ) row ch, m.grantBurst[k]? = some row →
      headampRecord row = some (ch, headampPhantom, 1) →
      m.win.grantTicks ≤ m.grantAnchor + 1 + 12 * k → tx'.phantomOn ch := by
    intro k row ch hk hrec hle
    rw [← inv.stride] at hle
    have hrow : m.onRowAhead ch := ⟨hs, hb, k, row, hk, hrec, hle⟩
    by_contra hoff
    exact (hkept ch (inv.live ch hrow) hoff).1 hrow
  constructor
  · intro hd
    have hpos : 0 < m.grantBurst.length := by
      rw [(inv.sweep.1 hb).length.1]
      unfold grantSweepLen
      omega
    refine ⟨inv.table, inv.stride, inv.dwell, inv.sweep, ?_, ?_⟩
    · intro _ _
      exact ⟨_, (ok.slot inv.stride inv.dwell hb inv.sweep.length_le hpos hw).2 hd⟩
    · rintro ch ⟨-, -, k, row, hk, hrec, hle⟩
      refine hahead k row ch hk hrec (hrest k ?_)
      rw [show ({ m with cad := c, win := w.tick } : Master).geo.grantStride = 12 from inv.stride]
        at hle
      exact hle
  · intro i row ch hi hk hrec
    obtain ⟨hnonneg, hle⟩ := hsent i hi
    refine hahead i.toNat row ch hk hrec ?_
    rwa [Int.toNat_of_nonneg hnonneg]

theorem undeclaredSlot_grantIdx (m : Master) : (undeclaredSlot m).2.grantIdx = none := by
  unfold undeclaredSlot
  split_ifs
  · rfl
  · exact dwellSlot_grantIdx ..

theorem masterStamp_grant {s : Slot} {r : ℕ × ℕ × UInt8} (hg : s.emit = .grant)
    (h : (masterStamp m s).bind headampRecord = some r) :
    ∃ row, m.grantBurst[s.idx.toNat]? = some row ∧ headampRecord row = some r := by
  unfold masterStamp at h
  rw [hg] at h
  dsimp only at h
  by_cases hneg : s.idx < 0
  · rw [if_pos hneg] at h
    cases h
  rw [if_neg hneg] at h
  cases hrow : m.grantBurst[s.idx.toNat]? with
  | none =>
    rw [hrow] at h
    cases h
  | some row =>
    rw [hrow, Option.map_some, Option.bind_some, headampRecord_stampBlockCksum] at h
    exact ⟨row, rfl, h⟩

/-- A slot. What it sends of the window, and what is left of it, agrees with the table as the slot
leaves it. -/
theorem NextMove.armed {m' : Master} {s : Slot} (h : NextMove t tx m m' s) (inv : Armed tx m)
    (hkept : m.PhantomKept tx tx') :
    Armed tx' m' ∧ (s.emit = .grant → ∀ ch,
      (masterStamp m' s).bind headampRecord = some (ch, headampPhantom, 1) → tx'.phantomOn ch) := by
  have hcont := Continues.nextMove h
  have hsweep := hcont.sweep inv.sweep
  have hstride : m'.geo.grantStride = 12 := by rw [hcont.geo]; exact inv.stride
  have hdwell : m'.geo.DwellOk := by rw [hcont.geo]; exact inv.dwell
  have hnogrant : ∀ {m₀ : Master} {c : Cadence} {s : Slot}, controlCadence t m₀ = (c, s) →
      s.emit ≠ .grant := by
    intro m₀ c s hc
    have hne := (controlCadence_emit t m₀).1
    rwa [hc] at hne
  have hrow : s.emit = .grant → s.grantIdx = some s.idx := by
    intro hg
    exact if_pos hg
  have hquiet : ∀ {m₀ : Master} {c : Cadence}, undeclaredSlot m₀ = (c, s) → s.emit ≠ .grant := by
    intro m₀ c hw hg
    have hidx := undeclaredSlot_grantIdx m₀
    rw [hw, hrow hg] at hidx
    cases hidx
  cases h with
  | hunt h₀ hs hc blk desc =>
    have inv₀ := inv.ticked h₀
    refine ⟨?_, fun hg => absurd hg (hnogrant hc)⟩
    exact inv₀.cadence (hkept.ticked h₀) hc (sceneAccount_move tx s.emit (.inl hs)) (.inl hs) rfl rfl
      inv₀.sweep rfl rfl rfl
  | locked h₀ hs hc lc blk desc hlc hleft =>
    have inv₀ := inv.ticked h₀
    refine ⟨?_, fun hg => absurd hg (hnogrant hc)⟩
    exact inv₀.cadence (hkept.ticked h₀) hc (sceneAccount_move tx s.emit (.inr hs)) (.inr hs) rfl rfl
      inv₀.sweep rfl rfl rfl
  | lost h₀ hs hc =>
    refine ⟨.of_idle ((enterProbing_headampSrc _).trans (inv.ticked h₀).table) hstride hdwell hsweep
      ?_, fun hg => absurd hg (hnogrant hc)⟩
    exact ne_of_eq_of_ne (enterProbing_state _) (by decide)
  | wait h₀ hs hb hw =>
    refine ⟨⟨(inv.ticked h₀).table, hstride, hdwell, hsweep, ?_, ?_⟩, ?_⟩
    · intro _ hb'
      exact absurd (hb.symm.trans hb') (by decide)
    · rintro ch ⟨-, hb', -⟩
      exact absurd (hb.symm.trans hb') (by decide)
    · intro hg
      exact absurd hg (hquiet hw)
  | boxUnknown h₀ hs hb hw =>
    refine ⟨.of_idle ((enterProbing_headampSrc _).trans (inv.ticked h₀).table) hstride hdwell hsweep
      ?_, ?_⟩
    · exact ne_of_eq_of_ne (enterProbing_state _) (by decide)
    · intro hg
      exact absurd hg (hquiet hw)
  | grant h₀ hs hb hw hd =>
    obtain ⟨harmed, hsends⟩ := (inv.ticked h₀).window_slot (hkept.ticked h₀) hs hb hw
    refine ⟨harmed hd, ?_⟩
    intro hg ch hrec
    obtain ⟨row, hk, hrec⟩ := masterStamp_grant hg hrec
    exact hsends s.idx row ch (hrow hg) hk hrec
  | delivered h₀ hs hb hw hd =>
    obtain ⟨-, hsends⟩ := (inv.ticked h₀).window_slot (hkept.ticked h₀) hs hb hw
    refine ⟨.of_idle (inv.ticked h₀).table hstride hdwell hsweep
      (by decide : MasterState.established ≠ .granting), ?_⟩
    intro hg ch hrec
    obtain ⟨row, hk, hrec⟩ := masterStamp_grant hg hrec
    exact hsends s.idx row ch (hrow hg) hk hrec

/-! ## The pacer -/

/-- Phantom power is on for the channel, and an operator's phantom-off is waiting for the next slot,
with no phantom-on behind it. -/
def Pacer.turnsOff (p : Pacer) (ch : ℕ) : Prop :=
  p.headamp.phantomOn ch ∧ ∃ l₁ l₂, p.headampCmds = l₁ ++ (ch, headampPhantom, 0) :: l₂ ∧
    (ch, headampPhantom, 1) ∉ l₂

/-- A slot turns phantom power off for no channel that the open window, or a window this slot opens
for an edge it held, is still to switch it on for. A slot that starts a new master has no window. -/
def PhantomStays (p : Pacer) (i : PacerInput) : Prop :=
  i = .slot → p.rateReqPending = false → ∀ ch, p.turnsOff ch →
    ¬ p.master.onRowAhead ch ∧ ¬ (p.master.opensHeld ∧ p.master.alloc.Has ch)

theorem phantomOn_lt {ch : ℕ} (h : tx.phantomOn ch) : ch < headampMaxCh := by
  by_contra hge
  unfold HeadampTx.phantomOn headampTxEffective at h
  rw [if_neg (by decide)] at h
  dsimp only at h
  rw [if_neg (fun hc => hge hc.1)] at h
  exact absurd h (by decide)

/-- Only a command for the cell changes it. -/
theorem headampTxSet_other {t t' : HeadampTx} {ch param c p : ℕ} {value : UInt8}
    (h : headampTxSet t ch param value = some t') (hne : ¬ (c = ch ∧ p = param)) :
    headampTxEffective (some t') c p = headampTxEffective (some t) c p := by
  unfold headampTxSet at h
  split_ifs at h
  obtain rfl := Option.some.inj h
  exact headampTxEffective_congr (setCell_of_ne _ _ hne) (setCell_of_ne _ _ hne)

/-- What takes phantom power away is a phantom-off that no phantom-on follows. -/
theorem turnsOff_of_drained {ch : ℕ} (hon : p.headamp.phantomOn ch) (hoff : ¬ p.drained.phantomOn ch) :
    p.turnsOff ch := by
  refine ⟨hon, ?_⟩
  have hch := phantomOn_lt hon
  unfold Pacer.drained headampDrain at hoff
  dsimp only at hoff
  generalize p.headampCmds = cmds at hoff
  -- The induction is on the last command.
  induction cmds using List.reverseRecOn with
  | nil => exact absurd hon hoff
  | append_singleton cmds cmd ih =>
    obtain ⟨c, param, value⟩ := cmd
    rw [List.foldl_append, List.foldl_cons, List.foldl_nil] at hoff
    dsimp only at hoff
    by_cases hlast : (c, param, value) = (ch, headampPhantom, 0)
    · exact ⟨cmds, [], by rw [hlast], List.not_mem_nil⟩
    generalize cmds.foldl (fun t c => (headampTxSet t c.1 c.2.1 c.2.2).getD t) p.headamp = t' at ih hoff
    have hnoton : (c, param, value) ≠ (ch, headampPhantom, 1) := by
      intro heq
      cases heq
      obtain ⟨t'', htake, hvalue⟩ := headampTxSet_legal t' hch (by decide : paramValueOk 0 1 = true)
      rw [show headampPhantom = 0 from rfl, htake] at hoff
      exact hoff hvalue
    have hbefore : ¬ t'.phantomOn ch := by
      intro hwas
      apply hoff
      cases htake : headampTxSet t' c param value with
      | none => exact hwas
      | some t'' =>
        refine (headampTxSet_other htake ?_).trans hwas
        rintro ⟨rfl, rfl⟩
        have hlegal : paramValueOk headampPhantom value = true := by
          unfold headampTxSet at htake
          split_ifs at htake with hlegal
          exact hlegal.2
        have hbool : value = 0 ∨ value = 1 := by
          have hle : value ≤ 1 := by simpa [paramValueOk, headampPhantom] using hlegal
          have hnat := UInt8.le_iff_toNat_le.mp hle
          rw [UInt8.toNat_one] at hnat
          rcases Nat.le_one_iff_eq_zero_or_eq_one.mp hnat with hv | hv
          · exact .inl (UInt8.toNat_inj.mp hv)
          · exact .inr (UInt8.toNat_inj.mp hv)
        rcases hbool with rfl | rfl
        · exact hlast rfl
        · exact hnoton rfl
    obtain ⟨l₁, l₂, rfl, hnone⟩ := ih hbefore
    refine ⟨l₁, l₂ ++ [(c, param, value)], by simp, ?_⟩
    rw [List.mem_append, List.mem_singleton, not_or]
    exact ⟨hnone, hnoton.symm⟩

theorem PhantomStays.kept (h : PhantomStays p .slot) (hpend : p.rateReqPending = false) :
    p.master.PhantomKept p.headamp p.drained := by
  intro ch hon hoff
  exact h rfl hpend ch (turnsOff_of_drained hon hoff)

/-- A frame that switches phantom power on leaves while the table asks for it. -/
def PhantomSafe (e : PacerEvent) : Prop :=
  ∀ sent ch, e.out.sent = some sent → sent.record = some (ch, headampPhantom, 1) →
    e.post.headamp.phantomOn ch

theorem Armed.of_phantomOn (h : Armed tx m) (heq : ∀ ch, tx.phantomOn ch → tx'.phantomOn ch) :
    Armed tx' m :=
  ⟨h.table, h.stride, h.dwell, h.sweep, h.window, fun ch hrow => heq ch (h.live ch hrow)⟩

theorem Armed.answered (h : Armed tx m) (complete : Bool) :
    Armed tx (masterIdentityAnswered m complete) := h.congr rfl rfl rfl rfl rfl rfl rfl

theorem Armed.frame (inv : Armed p.headamp p.master) (env : Env) (bytes : List UInt8) :
    Armed (rxIngest env p bytes).1.headamp (rxIngest env p bytes).1.master := by
  have hon : ∀ ch, p.headamp.phantomOn ch → (rxIngest env p bytes).1.headamp.phantomOn ch := by
    intro ch h
    exact (rxIngest_effective env p bytes ch headampPhantom).trans h
  refine Armed.of_phantomOn ?_ hon
  obtain ⟨p₀, ident, frag, complete, hp₀, -, ⟨-, heq⟩ | ⟨src, ev, -, htaken⟩⟩ :=
    rxIngest_takes env p bytes
  · rw [heq, hp₀]
    exact inv.answered complete
  · have inv₀ : Armed p₀.headamp p₀.master := by
      rw [hp₀]
      exact inv.answered complete
    have htx : (rxDeclare p₀ (cleanFrame bytes)).headamp = p.headamp := by
      rw [(rxDeclare_path {} p₀ (cleanFrame bytes)).2, hp₀]
    have inv₁ := inv₀.declare (cleanFrame bytes)
    rw [show p₀.headamp = p.headamp by rw [hp₀]] at inv₁
    obtain ⟨_, _, _, _, _, _, _, _, heq, -⟩ := htaken
    rw [heq]
    rw [htx]
    exact ((masterRx_move ..).armed inv₁).answered _

/-- A slot behind the rate drain. -/
theorem Armed.masterSlot (inv : Armed p.headamp p.master) (ok : WireOk p) (env : Env)
    (hkept : p.master.PhantomKept p.headamp p.drained) :
    Armed (masterSlot env p).1.headamp (masterSlot env p).1.master ∧
      ∀ ch, (masterSlot env p).2.2.record = some (ch, headampPhantom, 1) →
        (masterSlot env p).1.headamp.phantomOn ch := by
  obtain ⟨harmed, hsends⟩ := (masterNext_move env.tunables p.headamp p.master).armed inv hkept
  have hon : ∀ ch, p.drained.phantomOn ch → (Libreac.masterSlot env p).1.headamp.phantomOn ch := by
    intro ch h
    exact (masterSlot_effective ok env ch headampPhantom).trans h
  constructor
  · refine Armed.of_phantomOn ?_ hon
    obtain ⟨_, _, _, _, _, _, _, _, _, complete, heq, -⟩ := masterSlot_eq env p
    rw [heq]
    exact harmed.answered complete
  · intro ch hrec
    refine hon ch ?_
    rcases masterSlot_record ok env hrec with ⟨hgrant, hstamp⟩ | hvalue
    · exact hsends hgrant ch hstamp
    · exact hvalue.symm

/-- A master just initialised has no window, and no edge to open one for. -/
theorem armed_init (t : MasterTunables) (placeholder : SceneBody) (src : Mac)
    (cfg : Option ConsoleCfg) (tx₀ : HeadampTx) {fps : ℤ} (hrate : fps ≤ 596522)
    (hm : m = masterSetHeadampSrc tx₀ (masterInit t placeholder src cfg fps) true) :
    Armed tx m ∧ m.PhantomKept tx tx' := by
  obtain ⟨hs, -, hgeo, hsweep, -⟩ := masterInit_rests t placeholder src cfg tx₀ fps
  obtain ⟨rows, -, -, heq⟩ := masterSetHeadampSrc_eq tx₀ (masterInit t placeholder src cfg fps) true
  obtain ⟨blk, desc, hinit⟩ := masterInit_eq t placeholder src cfg fps
  have hwin := geometry_window t hrate
  rw [← hgeo] at hwin
  rw [← hm] at hs hsweep hwin heq
  have hne : m.state ≠ .granting := by
    rw [hs]
    decide
  have hheld : m.joinHeld = false := by
    rw [heq, hinit]
  refine ⟨.of_idle (by rw [heq]) hwin.1 hwin.2 hsweep hne, ?_⟩
  intro ch _ _
  refine ⟨fun hrow => hne hrow.1, ?_⟩
  rintro ⟨⟨hj, -⟩, -⟩
  rw [hheld] at hj
  cases hj

theorem Armed.slot (inv : Armed p.headamp p.master) (ok : WireOk p) (rates : RatesFit p) (env : Env)
    (hstays : PhantomStays p .slot) :
    let r := Libreac.masterSlot env (rateDrain env p).1
    Armed r.1.headamp r.1.master ∧
      ∀ ch, r.2.2.record = some (ch, headampPhantom, 1) → r.1.headamp.phantomOn ch := by
  have ok' := ok.rateDrain env
  have hdrain : Armed (rateDrain env p).1.headamp (rateDrain env p).1.master ∧
      (rateDrain env p).1.master.PhantomKept (rateDrain env p).1.headamp (rateDrain env p).1.drained := by
    unfold rateDrain
    by_cases hpend : p.rateReqPending = true
    · rw [if_pos hpend]
      obtain ⟨cfg, hm⟩ := applyRate_master env { p with rateReqSeen := p.rateReqSeq } p.rateReqHz
      exact armed_init _ _ _ cfg _ rates.fps hm
    · rw [if_neg hpend]
      exact ⟨inv, hstays.kept (by simpa using hpend)⟩
  exact hdrain.1.masterSlot ok' env hdrain.2

/-- The invariant of a run. -/
structure PhantomInv (p : Pacer) : Prop where
  wire : WireOk p
  rates : RatesFit p
  armed : Armed p.headamp p.master

theorem PhantomInv.step (inv : PhantomInv p) (env : Env) (i : PacerInput) (hstays : PhantomStays p i) :
    PhantomInv (pacerStep env p i).1 ∧ PhantomSafe ((pacerMachine env).event p i) := by
  suffices h : Armed (pacerStep env p i).1.headamp (pacerStep env p i).1.master ∧
      PhantomSafe ((pacerMachine env).event p i) from
    ⟨⟨inv.wire.step env i, inv.rates.step env i, h.1⟩, h.2⟩
  have hquiet : (pacerStep env p i).2.sent = none → PhantomSafe ((pacerMachine env).event p i) := by
    intro hnone sent ch hsent
    exact absurd (hnone.symm.trans hsent) nofun
  cases i with
  | frame bytes => exact ⟨inv.armed.frame env bytes, hquiet rfl⟩
  | slot =>
    obtain ⟨harmed, hsafe⟩ := inv.armed.slot inv.wire inv.rates env hstays
    obtain ⟨hpost, hslot⟩ := slot_event env p
    rw [(pacerStep_slot_eq env p).1]
    refine ⟨harmed, ?_⟩
    rw [← hpost] at hsafe
    intro sent ch hsent hrec
    have heq := Option.some.inj (hslot.symm.trans hsent)
    rw [← heq] at hrec
    exact hsafe ch hrec
  | requestRate r => exact ⟨inv.armed, hquiet rfl⟩
  | requestReestablish => exact ⟨inv.armed, hquiet rfl⟩
  | headampSet ch param value =>
    refine ⟨?_, hquiet rfl⟩
    simp only [pacerStep, headampSet]
    split_ifs
    · exact inv.armed
    · exact inv.armed

theorem phantomInv_open (env : Env) (cfg : PacerCfg) : PhantomInv (pacerOpen env cfg) := by
  have harmed : Armed (pacerOpen env cfg).headamp (pacerOpen env cfg).master ∧
      (pacerOpen env cfg).master.PhantomKept (pacerOpen env cfg).headamp (pacerOpen env cfg).headamp :=
    armed_init env.tunables env.placeholder cfg.srcMac (some cfg.consoleCfg)
      (headampOpen cfg.fps cfg.headamps) cfg.fps_le rfl
  exact ⟨wireOk_open env cfg, ratesFit_open env cfg, harmed.1⟩

/-- In a run whose slots apply no phantom-off under a row that is still to switch it on, no frame
switches phantom power on for a channel that the table has it off for. -/
theorem phantom_safe (env : Env) (cfg : PacerCfg) {is : List PacerInput}
    (hstays : ∀ log e, (pacerMachine env).StepOf (pacerOpen env cfg) is log e →
      PhantomStays e.pre e.input) :
    ∀ log e, (pacerMachine env).StepOf (pacerOpen env cfg) is log e → PhantomSafe e := by
  intro log e he
  obtain ⟨inv, hevent⟩ := (pacerMachine env).trace_invariant_at (H := fun _ p => PhantomInv p)
    (L := fun _ e => PhantomStays e.pre e.input) (phantomInv_open env cfg)
    (fun _ _ i inv h => (inv.step env i h).1) hstays he
  rw [hevent]
  exact (inv.step env e.input (hstays log e he)).2

/-! ## A row leaves -/

/-- A slot of the window carries row `k`, or leaves it ahead. -/
theorem Windowing.row (h : Windowing m) (t : MasterTunables) (tx : HeadampTx) {k : ℕ}
    (hk : k < m.grantBurst.length) (hle : m.win.grantTicks ≤ m.grantAnchor + 1 + 12 * k) :
    let r := masterNext t tx m
    (r.2.grantIdx = some (k : ℤ) ∧ r.1.grantBurst = m.grantBurst ∧ 0 < m.win.grantTicks) ∨
    (WindowsOn m r.1 ∧ Windowing r.1 ∧ r.1.win.grantTicks = m.win.grantTicks + 1 ∧
      r.1.win.grantTicks ≤ r.1.grantAnchor + 1 + 12 * k ∧ r.1.grantAnchor ≤ m.grantAnchor) := by
  have hnext := h.next t tx
  have hmove := masterNext_move t tx m
  generalize masterNext t tx m = r at hnext hmove
  obtain ⟨m', s⟩ := r
  dsimp only at hnext hmove ⊢
  have hidle : m.state ≠ .idle := by
    rw [h.state]
    decide
  have hspec : ∀ {seen tick} {c : Cadence} {w : Window}, declaredSlot t { m with
      counter := m.counter + 1, boxSeen := seen, presenceTick := tick } = (c, w, s) →
      w.dwellEndedTick ≤ m.geo.grantDwell ∧
      ((s.grantIdx = some (k : ℤ) ∧ 0 < m.win.grantTicks) ∨
      (w.tick.grantTicks ≤ Master.grantAnchor { m with win := w.tick } + 1 + 12 * k ∧
        Master.grantAnchor { m with win := w.tick } ≤ m.grantAnchor)) := by
    intro seen tick c w hw
    obtain ⟨hticks, hended, hidx⟩ := declaredSlot_spec (m := { m with
      counter := m.counter + 1, boxSeen := seen, presenceTick := tick }) h.stride h.dwell h.ticks
      h.ended h.ended_lt hw
    have h₁ := h.ended
    have h₂ := h.dwell
    have h₃ := h.ended_le
    simp only [Master.grantAnchor, rowDue, Window.tick] at hidx hended hticks hle ⊢
    refine ⟨by omega, ?_⟩
    by_cases hdue : m.win.grantTicks - 1 -
        (if 0 < w.dwellEndedTick then w.dwellEndedTick else m.geo.grantDwell) = 12 * k
    · left
      rw [hidx, hdue, if_pos (by omega)]
      refine ⟨by rw [Int.mul_ediv_cancel_left _ (by decide)], ?_⟩
      split_ifs at hdue <;> omega
    · right
      split_ifs at hle hdue ⊢ <;> omega
  cases hmove with
  | hunt h₀ hs | locked h₀ hs | lost h₀ hs =>
    obtain ⟨seen, tick, rfl⟩ := h₀.of_ne_idle hidle
    exact absurd (h.state.symm.trans hs) (by decide)
  | wait h₀ _ hb | boxUnknown h₀ _ hb =>
    obtain ⟨seen, tick, rfl⟩ := h₀.of_ne_idle hidle
    exact absurd (h.box.symm.trans hb) (by decide)
  | delivered h₀ hs hb hw hd =>
    obtain ⟨seen, tick, rfl⟩ := h₀.of_ne_idle hidle
    rcases hspec hw with ⟨hended, ⟨hidx, hpos⟩ | ⟨hle', -⟩⟩
    · exact .inl ⟨hidx, rfl, hpos⟩
    · -- The whole sweep is behind a delivered window.
      exfalso
      rename_i c w
      have hrun := mt (grantDelivered_eq_false_iff (m := { m with
        counter := m.counter + 1, boxSeen := seen, presenceTick := tick, cad := c, win := w.tick })
        h.stride h.dwell hended h.length_le h.box).mpr (by rw [hd]; decide)
      simp only [Master.grantAnchor] at hrun hle'
      split_ifs at hrun hle' <;> omega
  | grant h₀ hs hb hw hd =>
    obtain ⟨seen, tick, rfl⟩ := h₀.of_ne_idle hidle
    rcases hspec hw with ⟨-, ⟨hidx, hpos⟩ | hahead⟩
    · exact .inl ⟨hidx, rfl, hpos⟩
    · right
      rcases hnext with ⟨m₁, -, heq⟩ | ⟨hon, hwin, htick, -⟩
      · have hstate : _ = MasterState.established := congrArg Master.state heq
        exact absurd (hs.symm.trans hstate) (by decide)
      · exact ⟨hon, hwin, htick, hahead.1, hahead.2⟩

/-- A slot with no rate change waiting. -/
theorem pacerStep_slot (env : Env) (hpend : p.rateReqPending = false) :
    (pacerStep env p .slot).1 = (masterSlot env p).1 ∧
      (pacerStep env p .slot).2.sent = some (masterSlot env p).2.2 := by
  have hdrain : rateDrain env p = (p, []) := by
    unfold rateDrain
    rw [hpend]
    rfl
  have hslot := pacerStep_slot_eq env p
  rwa [hdrain] at hslot

theorem Windowing.grantAnchor_nonneg (h : Windowing m) : 0 ≤ m.grantAnchor := by
  have h₁ := h.ended
  have h₂ := h.dwell
  unfold Master.grantAnchor
  split_ifs <;> omega

/-- Every row that is ahead leaves, if the window is left alone. -/
theorem row_leaves (env : Env) (hw : Windowing p.master) (hpend : p.rateReqPending = false) {k : ℕ}
    (hk : k < p.master.grantBurst.length)
    (hle : p.master.win.grantTicks ≤ p.master.grantAnchor + 1 + 12 * k) :
    ∃ n, let q := (pacerMachine env).run p (List.replicate n .slot)
      q.rateReqPending = false ∧ 0 < q.master.win.grantTicks ∧
        (q.next env).2.grantIdx = some (k : ℤ) ∧
        (q.next env).1.grantBurst = p.master.grantBurst := by
  -- The induction is on the slots left until the row is due.
  obtain ⟨left, hleft⟩ : ∃ left : ℕ,
      p.master.grantAnchor + 1 + 12 * k - p.master.win.grantTicks ≤ left := ⟨_, Int.self_le_toNat _⟩
  induction left generalizing p with
  | zero =>
    rcases hw.row env.tunables p.headamp hk hle with ⟨hidx, hrows, hpos⟩ | ⟨-, -, htick, hle', hanchor⟩
    · exact ⟨0, hpend, hpos, hidx, hrows⟩
    · omega
  | succ left ih =>
    rcases hw.row env.tunables p.headamp hk hle with
      ⟨hidx, hrows, hpos⟩ | ⟨hon, hw', htick, hle', hanchor⟩
    · exact ⟨0, hpend, hpos, hidx, hrows⟩
    · have hkeeps := masterSlot_keeps env p
      obtain ⟨_, _, _, _, _, _, _, _, _, complete, heq, -⟩ := masterSlot_eq env p
      have hmaster : (masterSlot env p).1.master = masterIdentityAnswered
          (masterNext env.tunables p.headamp p.master).1 complete := by rw [heq]
      have hrows : (masterNext env.tunables p.headamp p.master).1.grantBurst
          = p.master.grantBurst := by
        obtain ⟨_, _, _, _, _, hm⟩ := hon
        rw [hm]
      have hnext := ih (p := (masterSlot env p).1)
      rw [hmaster] at hnext
      obtain ⟨n, hq⟩ := hnext ⟨hw'.state, hw'.box, hw'.stride, hw'.dwell, hw'.ticks, hw'.ended,
        hw'.ended_lt, hw'.ended_le, hw'.length_le⟩ (hkeeps.pending.trans hpend)
        (by exact lt_of_lt_of_eq hk (congrArg List.length hrows.symm)) hle' (by
          change (masterNext env.tunables p.headamp p.master).1.grantAnchor + 1 + 12 * k
            - (masterNext env.tunables p.headamp p.master).1.win.grantTicks ≤ left
          omega)
      refine ⟨n + 1, ?_⟩
      rw [List.replicate_succ, Reactive.Machine.run_cons]
      have hstep : ((pacerMachine env).step p .slot).1 = (masterSlot env p).1 :=
        (pacerStep_slot env hpend).1
      rw [hstep]
      exact ⟨hq.1, hq.2.1, hq.2.2.1, hq.2.2.2.trans hrows⟩

/-- The slot that carries a grant row sends its record. -/
theorem grantRow_sent (env : Env) (ok : WireOk p) (hpend : p.rateReqPending = false) {k : ℕ}
    (hidx : (p.next env).2.grantIdx = some (k : ℤ)) {row : Template}
    (hrow : (p.next env).1.grantBurst[k]? = some row) :
    ∃ sent, (pacerStep env p .slot).2.sent = some sent ∧ sent.record = headampRecord row := by
  refine ⟨_, (pacerStep_slot env hpend).2, ?_⟩
  have hgrant : (p.next env).2.emit = .grant ∧ (p.next env).2.idx = k := by
    unfold Slot.grantIdx at hidx
    split_ifs at hidx with hg
    exact ⟨hg, Option.some.inj hidx⟩
  obtain ⟨t', rec, -, hrec, hmove, -⟩ := masterSlot_table ok.table env
  have hnone : rec = none := by
    rcases hmove with ⟨⟨hfill, -⟩, -⟩ | ⟨-, -, hnone⟩
    · exact absurd (hgrant.1.symm.trans hfill) (by decide)
    · exact hnone
  rw [Sent.record, hrec, hnone, Option.none_or, masterStamp, hgrant.1]
  dsimp only
  rw [if_neg (by omega), hgrant.2, Int.toNat_natCast, hrow, Option.map_some, Option.bind_some,
    headampRecord_stampBlockCksum]

/-- The values a pacer works with once it has applied what is waiting stay as they are as long as
only slots follow. -/
theorem slots_effective (env : Env) (ok : WireOk p) (hpend : p.rateReqPending = false) (n : ℕ)
    (ch param : ℕ) :
    let q := (pacerMachine env).run p (List.replicate n .slot)
    headampTxEffective (some q.drained) ch param = headampTxEffective (some p.drained) ch param ∧
      (1 ≤ n → headampTxEffective (some q.headamp) ch param
        = headampTxEffective (some p.drained) ch param) := by
  induction n generalizing p with
  | zero => exact ⟨rfl, fun h => absurd h (by omega)⟩
  | succ n ih =>
    have hkeeps := masterSlot_keeps env p
    have heff := masterSlot_effective ok env ch param
    obtain ⟨_, _, _, _, _, _, _, _, _, _, heq, -⟩ := masterSlot_eq env p
    have hcmds : (masterSlot env p).1.headampCmds = [] := by rw [heq]
    have hdrained : (masterSlot env p).1.drained = (masterSlot env p).1.headamp := by
      unfold Pacer.drained headampDrain
      rw [hcmds]
      rfl
    obtain ⟨hrest, hpos⟩ := ih (p := (masterSlot env p).1) (ok.masterSlot env)
      (hkeeps.pending.trans hpend)
    rw [hdrained, heff] at hrest hpos
    have hstep : ((pacerMachine env).step p .slot).1 = (masterSlot env p).1 :=
      (pacerStep_slot env hpend).1
    dsimp only
    rw [List.replicate_succ, Reactive.Machine.run_cons, hstep]
    refine ⟨hrest, fun _ => ?_⟩
    rcases Nat.eq_zero_or_pos n with rfl | hn
    · exact heff
    · exact hpos hn

/-! ## Runs without commands -/

theorem drained_of_idle (h : p.headampCmds = []) : p.drained = p.headamp := by
  unfold Pacer.drained headampDrain
  rw [h]
  rfl

theorem PhantomStays.of_idle (h : p.headampCmds = []) (i : PacerInput) : PhantomStays p i := by
  rintro _ _ ch ⟨-, l₁, l₂, hcmds, -⟩
  rw [h] at hcmds
  exact absurd hcmds (by simp)

theorem rxIngest_cmds (env : Env) (p : Pacer) (bytes : List UInt8) :
    (rxIngest env p bytes).1.headampCmds = p.headampCmds := by
  obtain ⟨p₀, ident, frag, complete, hp₀, -, ⟨-, heq⟩ | ⟨src, ev, -, htaken⟩⟩ :=
    rxIngest_takes env p bytes
  · rw [heq, hp₀]
  · obtain ⟨_, _, _, _, hdecl, -⟩ := rxDeclare_eq p₀ (cleanFrame bytes)
    obtain ⟨_, _, _, _, _, _, _, _, heq, -⟩ := htaken
    rw [heq, hdecl, hp₀]

/-- A run in which no controller speaks. -/
def Quiet (is : List PacerInput) : Prop :=
  ∀ i ∈ is, i = .slot ∨ ∃ bytes, i = .frame bytes

theorem quiet_cmds (env : Env) (cfg : PacerCfg) {is : List PacerInput} (hq : Quiet is) :
    ((pacerMachine env).run (pacerOpen env cfg) is).headampCmds = [] ∧
      ∀ log e, (pacerMachine env).StepOf (pacerOpen env cfg) is log e → e.pre.headampCmds = [] := by
  have hstep : ∀ p i, p.headampCmds = [] → (i = .slot ∨ ∃ bytes, i = .frame bytes) →
      ((pacerMachine env).step p i).1.headampCmds = [] := by
    rintro p i h (rfl | ⟨bytes, rfl⟩)
    · obtain ⟨_, _, _, _, _, _, _, _, _, _, heq, -⟩ := masterSlot_eq env (rateDrain env p).1
      exact (congrArg Pacer.headampCmds (pacerStep_slot_eq env p).1).trans (by rw [heq])
    · exact (rxIngest_cmds env p bytes).trans h
  have hlegal : ∀ log e, (pacerMachine env).StepOf (pacerOpen env cfg) is log e →
      (e.input = .slot ∨ ∃ bytes, e.input = .frame bytes) := by
    intro log e he
    exact hq _ (Reactive.Machine.StepOf.input_mem _ he)
  constructor
  · exact (pacerMachine env).run_invariant (I := fun p => p.headampCmds = [])
      (L := fun _ i => i = .slot ∨ ∃ bytes, i = .frame bytes) rfl hstep is hlegal
  · intro log e he
    exact ((pacerMachine env).trace_invariant_at (H := fun _ p => p.headampCmds = [])
      (L := fun _ e => e.input = .slot ∨ ∃ bytes, e.input = .frame bytes) rfl
      (fun _ p i => hstep p i) hlegal he).1

theorem quiet_phantomInv (env : Env) (cfg : PacerCfg) {is : List PacerInput} (hq : Quiet is) :
    PhantomInv ((pacerMachine env).run (pacerOpen env cfg) is) := by
  refine (pacerMachine env).run_invariant (L := PhantomStays) (phantomInv_open env cfg) ?_ is ?_
  · intro p i inv h
    exact (inv.step env i h).1
  · intro log e he
    exact PhantomStays.of_idle ((quiet_cmds env cfg hq).2 log e he) _

/-! ## A stage box with a condenser microphone -/

theorem masterRx_swept (tx : HeadampTx) (hsrc : m.headampSrc = true) (hs : m.state = .probing)
    {ev : RxEvent} {src : Mac} {blk : Option Block}
    (hg : (masterRx tx m ev src blk).1.state = .granting) :
    (masterRx tx m ev src blk).1.Swept tx := by
  have hmove := masterRx_move tx m ev src blk
  generalize masterRx tx m ev src blk = r at hmove hg
  obtain ⟨m', changed⟩ := r
  have hheard : ∀ {m₁ : Master}, Heard m m₁ → m₁.state = .probing := by
    intro m₁ h₁
    exact h₁.probing_iff.mpr (.inr hs)
  cases hmove with
  | refused => exact absurd (hs.symm.trans hg) (by decide)
  | stay _ h₁ => exact absurd ((hheard h₁).symm.trans hg) (by decide)
  | held h₁ => exact absurd ((hheard h₁).symm.trans hg) (by decide)
  | latch h₁ => exact enterGranting_swept tx (h₁.headampSrc.trans hsrc) _ _
  | relatch h₁ hst =>
    rw [hheard h₁] at hst
    cases hst <;> contradiction
  | accept => exact absurd hg (by decide : MasterState.established ≠ .granting)
  | bye => exact absurd ((enterProbing_state _).symm.trans hg) (by decide)

/-- The window a declaration opens has its rows from the table. -/
theorem Hunting.opens {bytes : List UInt8} {src : Mac} {ports : BoxPorts} {a : GrantAlloc}
    (h : Hunting p) (hsrc : p.master.headampSrc = true) (hd : BoxDeclares p.src bytes src ports a)
    (env : Env) :
    let p' := (pacerStep env p (.frame bytes)).1
    p'.master.Fresh ∧ p'.master.Swept p.headamp := by
  obtain ⟨-, hw, hpos⟩ := grantAllocate_eq_some hd.alloc
  have hnew : ports.inCh ≠ p.declaredIn := by
    rw [h.declared]
    omega
  have htaken := hd.sends.taken env (h.accepts src .config)
  obtain ⟨rows, box, -, hdecl⟩ := rxDeclare_applied hd.len hd.ports_eq hd.alloc (.inl hnew)
    (.inr (by rw [h.state]; decide))
  rw [hdecl] at htaken
  obtain ⟨hlatch, -⟩ := masterRx_latches p.headamp (m := p.master.declared a rows) src
    (eventBlock .config (cleanFrame bytes)) h.state h.ready (.inr rfl)
  have hswept := masterRx_swept p.headamp (m := p.master.declared a rows) hsrc h.state hlatch.state
  obtain ⟨_, _, _, _, _, _, _, _, heq, -⟩ := htaken
  simp only [pacerStep]
  rw [heq]
  exact ⟨hlatch.fresh, hswept⟩

/-- A desk opened with phantom power on for channel 0. -/
def litCfg : PacerCfg := { deskCfg with headamps := [(0, headampPhantom, 1)] }

/-- The config-announce of the stage box. -/
def stageFrame : List UInt8 := configFrame stageBox 0 4 2

theorem stageFrame_declares :
    BoxDeclares deskMac stageFrame stageBox ⟨16, 8, 0⟩ stageBoxAlloc := stageBox_declares

/-- The row at `k` is sent by a slot behind the inputs `is`, if only slots follow them. -/
theorem row_sent {p₀ : Pacer} {is : List PacerInput} (hp : p = (pacerMachine env).run p₀ is)
    (ok : WireOk p) (hw : Windowing p.master) (hpend : p.rateReqPending = false)
    (hticks : p.master.win.grantTicks = 0) {k : ℕ} {row : Template}
    (hrow : p.master.grantBurst[k]? = some row) :
    ∃ n, 1 ≤ n ∧
      let q := (pacerMachine env).run p (List.replicate n .slot)
      q.rateReqPending = false ∧
      (pacerMachine env).StepOf p₀ (is ++ List.replicate (n + 1) .slot)
        ((pacerMachine env).trace p₀ (is ++ List.replicate n .slot))
        ((pacerMachine env).event q .slot) ∧
      ∃ sent, ((pacerMachine env).event q .slot).out.sent = some sent ∧
        sent.record = headampRecord row := by
  have hlen : k < p.master.grantBurst.length := by
    rw [List.getElem?_eq_some_iff] at hrow
    exact hrow.1
  have hanchor := hw.grantAnchor_nonneg
  obtain ⟨n, hpend', hpos, hidx, hrows⟩ := row_leaves env hw hpend hlen (by omega)
  have ok' : WireOk ((pacerMachine env).run p (List.replicate n .slot)) :=
    (pacerMachine env).run_invariant (L := fun _ _ => True) ok (fun _ i h _ => h.step env i) _
      fun _ _ _ => trivial
  refine ⟨n, ?_, hpend', ?_, grantRow_sent env ok' hpend' hidx (by rw [hrows]; exact hrow)⟩
  · by_contra hn
    obtain rfl : n = 0 := by omega
    rw [List.replicate_zero, Reactive.Machine.run_nil, hticks] at hpos
    exact absurd hpos (by decide)
  · rw [List.replicate_succ', ← List.append_assoc, hp, ← Reactive.Machine.run_append]
    exact (pacerMachine env).stepOf_last p₀ (is ++ List.replicate n .slot) .slot

/-- The desk up to the window of its stage box: row 1 switches the phantom power of channel 0 on. -/
theorem lit_window : ∃ n,
    let p := (pacerMachine deskEnv).run (pacerOpen deskEnv litCfg)
      (List.replicate n .slot ++ [.frame stageFrame])
    WireOk p ∧ Windowing p.master ∧ p.rateReqPending = false ∧ p.headampCmds = [] ∧
      p.master.win.grantTicks = 0 ∧ ∃ row, p.master.grantBurst[1]? = some row ∧
        headampRecord row = some (0, headampPhantom, 1) := by
  obtain ⟨n, hn, hhunt, hsrc, -⟩ :=
    (rested_open deskEnv litCfg (by decide : (500 : ℤ) ≤ 4000)).hunts deskEnv
  have hquiet : Quiet (List.replicate n .slot) := by
    intro i hi
    exact .inl (List.eq_of_mem_replicate hi)
  have inv := quiet_phantomInv deskEnv litCfg hquiet
  have heff := (slots_effective deskEnv (wireOk_open deskEnv litCfg) rfl n 0 headampPhantom).2 hn
  have hopen : headampTxEffective (some (pacerOpen deskEnv litCfg).drained) 0 headampPhantom = 1 := by
    rw [drained_of_idle rfl]
    rfl
  rw [hopen] at heff
  have hd := stageFrame_declares
  rw [← show _ = deskMac from hsrc] at hd
  refine ⟨n, ?_⟩
  dsimp only
  rw [Reactive.Machine.run_append]
  generalize (pacerMachine deskEnv).run (pacerOpen deskEnv litCfg) (List.replicate n .slot) = p at *
  obtain ⟨hwin, halloc, -⟩ := hhunt.declares hd deskEnv
  obtain ⟨hfresh, hswept⟩ := hhunt.opens inv.armed.table hd deskEnv
  have hwire := inv.wire.step deskEnv (.frame stageFrame)
  have hrun : (pacerMachine deskEnv).run p [.frame stageFrame]
      = (pacerStep deskEnv p (.frame stageFrame)).1 := rfl
  rw [hrun]
  have hrows := hswept hwin.window.box
  rw [halloc, grantBuildSweep_eq (by decide)] at hrows
  have hrows := Option.some.inj hrows
  refine ⟨hwire, hwin.window, hwin.idles.pending, hwin.idles.cmds, hfresh.1,
    groupaRow (some p.headamp) 0 0, ?_, ?_⟩
  · rw [← show _ = (pacerStep deskEnv p (.frame stageFrame)).1.master.grantBurst from hrows]
    rfl
  · rw [headampRecord_groupaRow _ (by decide) (by decide)]
    exact congrArg (fun v => some (0, 0, v)) heff

/-- The desk and its stage box without an operator: the row that switches channel 0 on is sent, and
every such row is right. -/
theorem phantom_safe_lit : ∃ is : List PacerInput,
    (∃ log e sent, (pacerMachine deskEnv).StepOf (pacerOpen deskEnv litCfg) is log e ∧
      e.out.sent = some sent ∧ sent.record = some (0, headampPhantom, 1)) ∧
    ∀ log e, (pacerMachine deskEnv).StepOf (pacerOpen deskEnv litCfg) is log e → PhantomSafe e := by
  obtain ⟨n, hwire, hwin, hpend, -, hticks, row, hrow, hrec⟩ := lit_window
  obtain ⟨k, -, -, hstep, sent, hsent, hrecord⟩ := row_sent rfl hwire hwin hpend hticks hrow
  refine ⟨_, ⟨_, _, sent, hstep, hsent, hrecord.trans hrec⟩, ?_⟩
  refine phantom_safe deskEnv litCfg ?_
  intro log e he
  refine PhantomStays.of_idle ((quiet_cmds deskEnv litCfg ?_).2 log e he) _
  intro i hi
  simp only [List.mem_append, List.mem_singleton, List.mem_replicate] at hi
  rcases hi with (⟨-, rfl⟩ | rfl) | ⟨-, rfl⟩
  · exact .inl rfl
  · exact .inr ⟨_, rfl⟩
  · exact .inl rfl

/-- The operator switches channel 0 off while the window of the stage box is open. The table has it
off in the slot before; the row switches it on all the same. -/
theorem stale_row_switches_on : ∃ n k,
    let is := List.replicate n .slot ++ [.frame stageFrame] ++ [.headampSet 0 headampPhantom 0] ++
      List.replicate k .slot
    ∃ log e, (pacerMachine deskEnv).StepOf (pacerOpen deskEnv litCfg) is log e ∧
      ¬ PhantomSafe e ∧ headampTxEffective (some e.pre.headamp) 0 headampPhantom = 0 := by
  obtain ⟨n, hwire, hwin, hpend, hcmds, hticks, row, hrow, hrec⟩ := lit_window
  generalize hp : (pacerMachine deskEnv).run (pacerOpen deskEnv litCfg)
    (List.replicate n .slot ++ [.frame stageFrame]) = p at *
  have hset : (pacerStep deskEnv p (.headampSet 0 headampPhantom 0)).1
      = { p with headampCmds := [(0, headampPhantom, 0)] } := by
    simp only [pacerStep, headampSet, hcmds]
    rfl
  have hoff : headampTxEffective (some (pacerStep deskEnv p (.headampSet 0 headampPhantom 0)).1.drained)
      0 headampPhantom = 0 := by
    have hch : 0 < headampMaxCh := by decide
    have hok : paramValueOk headampPhantom 0 = true := by decide
    obtain ⟨t', htake, hvalue⟩ := headampTxSet_legal p.headamp hch hok
    rw [hset]
    unfold Pacer.drained headampDrain
    rw [List.foldl_cons, List.foldl_nil]
    dsimp only
    rw [htake]
    exact hvalue
  have hrun : (pacerStep deskEnv p (.headampSet 0 headampPhantom 0)).1
      = (pacerMachine deskEnv).run (pacerOpen deskEnv litCfg)
        (List.replicate n .slot ++ [.frame stageFrame] ++ [.headampSet 0 headampPhantom 0]) := by
    rw [Reactive.Machine.run_append, hp]
    rfl
  have hwire' := hwire.step deskEnv (.headampSet 0 headampPhantom 0)
  rw [hset] at hoff hrun hwire'
  obtain ⟨k, hk, hpend', hstep, sent, hsent, hrecord⟩ :=
    row_sent (p := { p with headampCmds := [(0, headampPhantom, 0)] }) hrun hwire' hwin hpend hticks
      hrow
  refine ⟨n, k + 1, _, _, hstep, ?_, ?_⟩
  · intro hsafe
    have hon := hsafe sent 0 hsent (hrecord.trans hrec)
    have heff := (slots_effective deskEnv hwire' hpend (k + 1) 0 headampPhantom).2 (by omega)
    rw [hoff, List.replicate_succ', Reactive.Machine.run_concat] at heff
    exact absurd (heff.symm.trans hon) (by decide)
  · exact ((slots_effective deskEnv hwire' hpend k 0 headampPhantom).2 hk).trans hoff

end Libreac
