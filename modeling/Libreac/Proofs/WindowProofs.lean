import Libreac.Proofs.MasterProofs

/-!
# Proofs: a grant window delivers the whole sweep

While a window runs, the grants sent since it opened are the first rows of the sweep, and their
number is a function of the window's clock and of the anchor of the burst (`WindowOk`). The anchor
moves only by the latch of `dwellEndsNow`, in a slot before the first grant; so the count is the
same on both timelines, and when the window is delivered it has reached the length of the sweep.
-/

namespace Libreac

open Reactive (sinceLast sinceLast_concat)

variable {t : MasterTunables} {tx : HeadampTx} {m : Master}

/-- The step leaves a grant window that has not run a slot yet. -/
def opensWindow (e : MasterEvent) : Bool := e.post.state = .granting ∧ e.post.win.grantTicks = 0

/-- The row of the sweep a slot carries, if it is a grant. -/
def Slot.grantIdx (s : Slot) : Option ℤ := if s.emit = .grant then some s.idx else none

/-- The rows of the sweep sent in these steps. -/
def grantsOf (log : List MasterEvent) : List ℤ := log.filterMap fun e => e.out.bind Slot.grantIdx

/-- A call of `reac_master_set_box`. -/
def MasterInput.isSetBox : MasterInput → Bool
  | .setBox .. => true
  | _ => false

/-- A declaration made while the box of a running window is already known. -/
def redeclares (e : MasterEvent) : Bool :=
  e.input.2.isSetBox ∧ e.pre.state = .granting ∧ e.pre.hasBox

/-- Such a declaration is immediately followed by `reac_master_regrant`. -/
def RegrantFollows (e e' : MasterEvent) : Prop := redeclares e = true → e'.input.2 = .regrant

instance : DecidableRel RegrantFollows :=
  fun e e' => inferInstanceAs (Decidable (redeclares e = true → e'.input.2 = .regrant))

/-! ## One slot of the window -/

/-- A window with a box, `sent` being the rows it has carried so far. -/
structure WindowOk (m : Master) (sent : List ℤ) : Prop where
  ticks : 0 ≤ m.win.grantTicks
  ended : 0 ≤ m.win.dwellEndedTick
  ended_lt : 0 < m.win.dwellEndedTick → m.win.dwellEndedTick < m.win.grantTicks
  ended_le : m.win.dwellEndedTick ≤ m.geo.grantDwell
  running : m.win.grantTicks ≤ m.grantAnchor + 12 * m.grantBurst.length
  sent_eq : sent = (List.range ((m.win.grantTicks - m.grantAnchor + 10) / 12).toNat).map Int.ofNat

theorem grantAnchor_bounds (hd : m.geo.DwellOk) (hended : m.win.dwellEndedTick ≤ m.geo.grantDwell) :
    1 ≤ m.grantAnchor ∧ m.grantAnchor ≤ m.geo.grantDwell := by
  unfold Master.grantAnchor
  split_ifs <;> omega

theorem grantDelivered_eq_false_iff (h : m.geo.grantStride = 12) (hd : m.geo.DwellOk)
    (hended : m.win.dwellEndedTick ≤ m.geo.grantDwell) (hlen : m.grantBurst.length ≤ 128)
    (hb : m.hasBox = true) :
    m.grantDelivered = false ↔ m.win.grantTicks ≤ m.grantAnchor + 12 * m.grantBurst.length := by
  have hanchor := grantAnchor_bounds hd hended
  simp only [Master.grantDelivered, hb, h, true_and, decide_eq_false_iff_not]
  rw [wrapInt_of_lt (by omega) (by omega)]
  omega

theorem dwellSlot_grantIdx (g : Geometry) (c : Cadence) : (dwellSlot g c).2.grantIdx = none := by
  unfold dwellSlot
  split
  · rfl
  · split_ifs <;> rfl

theorem enrollSlot_grantIdx (t : MasterTunables) : (enrollSlot t).grantIdx = none := by
  unfold enrollSlot
  cases t.noEnroll <;> rfl

/-- The row due at `x` slots behind the anchor. -/
def rowDue (m : Master) (x : ℤ) : Option ℤ :=
  if 0 ≤ x ∧ x % 12 = 0 ∧ x / 12 < m.grantBurst.length then some (x / 12) else none

/-- A slot of the burst carries the row that is due. One slot before the burst nothing is due. -/
theorem burstWindowSlot_grantIdx (h : m.geo.grantStride = 12)
    (hx : -1 ≤ m.win.grantTicks - 1 - m.grantAnchor) :
    (burstWindowSlot m).2.grantIdx = rowDue m (m.win.grantTicks - 1 - m.grantAnchor) := by
  have hslot : m.grantSlot = rowDue m (m.win.grantTicks - 1 - m.grantAnchor) := by
    unfold Master.grantSlot rowDue
    rw [h]
    generalize m.win.grantTicks - 1 - m.grantAnchor = x at hx
    rcases Int.lt_or_le x 0 with hneg | hpos
    · obtain rfl : x = -1 := by omega
      simp
    · simp [Int.tmod_eq_emod_of_nonneg hpos, Int.tdiv_eq_ediv_of_nonneg hpos, hpos]
  unfold burstWindowSlot
  rw [hslot]
  cases rowDue m (m.win.grantTicks - 1 - m.grantAnchor) with
  | some k => rfl
  | none =>
    dsimp only
    split <;> rfl

/-- The window a slot leaves: the clock is not touched yet, the anchor is the old one or latched
now, and the slot carries the row due on that anchor. -/
theorem declaredSlot_spec {c : Cadence} {w : Window} {s : Slot} (h : m.geo.grantStride = 12)
    (hd : m.geo.DwellOk) (hticks : 0 ≤ m.win.grantTicks) (hended : 0 ≤ m.win.dwellEndedTick)
    (hlt : 0 < m.win.dwellEndedTick → m.win.dwellEndedTick < m.win.grantTicks)
    (hw : declaredSlot t m = (c, w, s)) :
    w.grantTicks = m.win.grantTicks ∧
    (w.dwellEndedTick = m.win.dwellEndedTick ∨
      m.win.dwellEndedTick = 0 ∧ 0 < m.win.grantTicks ∧ m.win.grantTicks ≤ m.geo.grantDwell ∧
        w.dwellEndedTick = m.win.grantTicks) ∧
    s.grantIdx = rowDue m (m.win.grantTicks - 1 - Master.grantAnchor { m with win := w }) := by
  have hnone : m.win.dwellEndedTick = 0 → m.win.grantTicks ≤ m.geo.grantDwell →
      rowDue m (m.win.grantTicks - 1 - m.grantAnchor) = none := by
    intro h0 hle
    rw [rowDue, if_neg]
    simp only [Master.grantAnchor, h0]
    omega
  unfold declaredSlot at hw
  split_ifs at hw with h0 hle
  · -- the first slot arms the box
    simp only [Prod.mk.injEq] at hw
    obtain ⟨-, rfl, rfl⟩ := hw
    refine ⟨rfl, .inl rfl, ?_⟩
    rw [enrollSlot_grantIdx]
    exact (hnone (by omega) (by omega)).symm
  · -- the dwell, which may end in this slot
    unfold dwellEndsNow at hw
    split_ifs at hw with hpos harm
    · simp only [Prod.mk.injEq] at hw
      obtain ⟨-, rfl, rfl⟩ := hw
      refine ⟨rfl, .inl rfl, burstWindowSlot_grantIdx h ?_⟩
      have := hlt hpos
      simp only [Master.grantAnchor, hpos, if_true]
      omega
    · simp only [Prod.mk.injEq] at hw
      obtain ⟨-, rfl, rfl⟩ := hw
      have htick : 0 < m.win.grantTicks := by omega
      refine ⟨rfl, .inr ⟨by omega, htick, hle, rfl⟩, ?_⟩
      refine burstWindowSlot_grantIdx (m := { m with win := { m.win with
        dwellEndedTick := m.win.grantTicks } }) h ?_
      simp only [Master.grantAnchor, htick, if_true]
      omega
    · dsimp only at hw
      split_ifs at hw
      · simp only [Prod.mk.injEq] at hw
        obtain ⟨-, rfl, rfl⟩ := hw
        refine ⟨rfl, .inl rfl, ?_⟩
        rw [enrollSlot_grantIdx]
        exact (hnone (by omega) hle).symm
      · simp only [Prod.mk.injEq] at hw
        obtain ⟨-, rfl, rfl⟩ := hw
        refine ⟨rfl, .inl rfl, ?_⟩
        rw [dwellSlot_grantIdx]
        exact (hnone (by omega) hle).symm
  · -- the burst after the cap
    simp only [Prod.mk.injEq] at hw
    obtain ⟨-, rfl, rfl⟩ := hw
    refine ⟨rfl, .inl rfl, burstWindowSlot_grantIdx h ?_⟩
    unfold Master.grantAnchor
    split_ifs with hpos
    · have := hlt hpos
      omega
    · omega

/-- The number of rows due before the slot `x` behind the anchor. -/
theorem rows_step (m : Master) {x : ℤ} (hx : x < 12 * m.grantBurst.length) :
    (List.range ((x + 11) / 12).toNat).map Int.ofNat ++ (rowDue m x).toList
      = (List.range ((x + 12) / 12).toNat).map Int.ofNat := by
  unfold rowDue
  split_ifs with h
  · obtain ⟨k, rfl⟩ : ∃ k : ℕ, x = 12 * k := ⟨(x / 12).toNat, by omega⟩
    have h₁ : ((12 * (k : ℤ) + 11) / 12).toNat = k := by omega
    have h₂ : ((12 * (k : ℤ) + 12) / 12).toNat = k + 1 := by omega
    have h₃ : 12 * (k : ℤ) / 12 = k := by omega
    rw [h₁, h₂, h₃, List.range_succ]
    simp
  · have hsame : ((x + 11) / 12).toNat = ((x + 12) / 12).toNat := by omega
    rw [hsame]
    simp

/-- A slot of a running window: the rows sent follow the clock, and a delivered window has sent
them all. -/
theorem WindowOk.slot {sent : List ℤ} {c : Cadence} {w : Window} {s : Slot} (ok : WindowOk m sent)
    (h : m.geo.grantStride = 12) (hd : m.geo.DwellOk) (hb : m.hasBox = true)
    (hlen : m.grantBurst.length ≤ 128) (hpos : 0 < m.grantBurst.length)
    (hw : declaredSlot t m = (c, w, s)) :
    (Master.grantDelivered { m with cad := c, win := w.tick } = true →
      sent ++ s.grantIdx.toList = (List.range m.grantBurst.length).map Int.ofNat) ∧
    (Master.grantDelivered { m with cad := c, win := w.tick } = false →
      WindowOk { m with cad := c, win := w.tick } (sent ++ s.grantIdx.toList)) := by
  obtain ⟨hticks, hended, hlt, hle, hrun, rfl⟩ := ok
  obtain ⟨hwt, hwe, hidx⟩ := declaredSlot_spec h hd hticks hended hlt hw
  have hanchor : Master.grantAnchor { m with cad := c, win := w.tick }
      = Master.grantAnchor { m with win := w } := rfl
  have htick : w.tick.grantTicks = m.win.grantTicks + 1 := by rw [Window.tick, hwt]
  have hwtick : w.tick.dwellEndedTick = w.dwellEndedTick := rfl
  generalize hx : m.win.grantTicks - 1 - Master.grantAnchor { m with win := w } = x at hidx
  -- On either timeline the count before this slot is the one of the new anchor.
  have hcount : ((m.win.grantTicks - m.grantAnchor + 10) / 12).toNat = ((x + 11) / 12).toNat := by
    simp only [Master.grantAnchor] at hx ⊢
    split_ifs at hx ⊢ <;> omega
  have hbound : x < 12 * m.grantBurst.length := by
    simp only [Master.grantAnchor] at hx hrun
    split_ifs at hx hrun <;> omega
  have hle' : w.dwellEndedTick ≤ m.geo.grantDwell := by omega
  have hrun' := grantDelivered_eq_false_iff (m := { m with cad := c, win := w.tick }) h hd hle' hlen hb
  rw [hidx, hcount, rows_step m hbound]
  refine ⟨fun hdel => ?_, fun hdel => ?_⟩
  · have hfull : x + 1 = 12 * m.grantBurst.length := by
      have hge := mt hrun'.mpr (by simp [hdel])
      simp only [htick, hanchor] at hge
      omega
    have hlen : ((x + 12) / 12).toNat = m.grantBurst.length := by omega
    rw [hlen]
  · refine ⟨?_, ?_, ?_, hle', hrun'.mp hdel, ?_⟩
    · simp only [htick]; omega
    · simp only [hwtick]; omega
    · simp only [htick, hwtick]; omega
    · simp only [htick, hanchor]
      have heq : m.win.grantTicks + 1 - Master.grantAnchor { m with win := w } + 10 = x + 12 := by
        omega
      rw [heq]

/-! ## Whole runs -/

/-- The window has just been opened, and not latched. -/
def Master.Fresh (m : Master) : Prop := m.win.grantTicks = 0 ∧ m.win.dwellEndedTick = 0

theorem enterGranting_fresh (tx : HeadampTx) (m : Master) (src : Mac) (blk : Option Block) :
    (enterGranting tx m src blk).Fresh := by
  obtain ⟨rows, -, -, heq⟩ := enterGranting_eq tx m src blk
  rw [heq]
  exact ⟨rfl, rfl⟩

theorem WindowOk.fresh (h : m.Fresh) (hd : m.geo.DwellOk) : WindowOk m [] := by
  obtain ⟨ht, he⟩ := h
  have hanchor : m.grantAnchor = m.geo.grantDwell := by simp [Master.grantAnchor, he]
  refine ⟨by omega, by omega, by omega, by omega, by omega, ?_⟩
  have hzero : ((m.win.grantTicks - m.grantAnchor + 10) / 12).toNat = 0 := by omega
  rw [hzero]
  rfl

theorem WindowOk.congr {m' : Master} {sent : List ℤ} (ok : WindowOk m sent)
    (hticks : m'.win.grantTicks = m.win.grantTicks)
    (hended : m'.win.dwellEndedTick = m.win.dwellEndedTick) (hgeo : m'.geo = m.geo)
    (hlen : m'.grantBurst.length = m.grantBurst.length) : WindowOk m' sent := by
  have hanchor : m'.grantAnchor = m.grantAnchor := by simp only [Master.grantAnchor, hended, hgeo]
  obtain ⟨ht, he, hlt, hle, hrun, hsent⟩ := ok
  refine ⟨?_, ?_, ?_, ?_, ?_, ?_⟩
  · rwa [hticks]
  · rwa [hended]
  · rwa [hticks, hended]
  · rwa [hended, hgeo]
  · rwa [hticks, hanchor, hlen]
  · rwa [hticks, hanchor]

/-- The rows sent since the window opened. -/
def windowGrants (log : List MasterEvent) : List ℤ := grantsOf (sinceLast opensWindow log)

theorem windowGrants_concat (log : List MasterEvent) (e : MasterEvent) :
    windowGrants (log ++ [e])
      = if opensWindow e then [] else windowGrants log ++ (e.out.bind Slot.grantIdx).toList := by
  unfold windowGrants
  rw [sinceLast_concat]
  split_ifs
  · rfl
  · simp only [grantsOf, List.filterMap_append, List.filterMap_cons, List.filterMap_nil]
    cases e.out.bind Slot.grantIdx <;> rfl

/-- The invariant of a run: a window with a known box is in order, except between a declaration that
replaces the box and the regrant that follows it. -/
structure WindowInv (log : List MasterEvent) (m : Master) : Prop where
  stride : m.geo.grantStride = 12
  dwell : m.geo.DwellOk
  sweep : m.SweepOk
  window : m.state = .granting → m.hasBox = true → (∀ l ∈ log.getLast?, redeclares l = false) →
    WindowOk m (windowGrants log)

theorem WindowInv.len_pos {log : List MasterEvent} (inv : WindowInv log m) (hb : m.hasBox = true) :
    m.grantBurst.length = 8 + 3 * m.alloc.width ∧ 0 < m.alloc.width := by
  have hlen := (inv.sweep.1 hb).length
  unfold grantSweepLen at hlen
  omega

/-- What one frame does to the grant window. -/
theorem RxMove.window {m' : Master} {ev : RxEvent} {src : Mac} {blk : Option Block} {r : Bool}
    (h : RxMove tx m ev src blk m' r) :
    m'.state ≠ .granting ∨ m'.Fresh ∨ (m.state = .granting ∧ m'.win = m.win ∧
      m'.alloc = m.alloc ∧ m'.grantBurst = m.grantBurst) := by
  cases h with
  | refused =>
    by_cases hs : m.state = .granting
    · exact .inr (.inr ⟨hs, rfl, rfl, rfl⟩)
    · exact .inl hs
  | stay _ h₁ =>
    rcases h₁.cases with ⟨-, hs⟩ | ⟨-, seen, lc, rfl⟩
    · exact .inl (by rw [hs]; decide)
    · by_cases hs : m.state = .granting
      · exact .inr (.inr ⟨hs, rfl, rfl, rfl⟩)
      · exact .inl hs
  | held _ hs => exact .inl (by simp [holdJoin, hs])
  | latch | relatch => exact .inr (.inl (enterGranting_fresh ..))
  | accept => exact .inl (by simp [enterEstablished])
  | bye => exact .inl (by simp [enterProbing_state])

/-- The transfer accounting opens a window or leaves the master outside one. -/
theorem sceneAccount_window (tx : HeadampTx) (m : Master) (emit : MasterEmit)
    (hs : m.state = .probing ∨ m.state = .established) :
    (sceneAccount tx m emit).state ≠ .granting ∨ (sceneAccount tx m emit).Fresh := by
  have hne : m.state ≠ .granting := by rcases hs with hs | hs <;> simp [hs]
  have hmove := sceneAccount_move tx emit hs
  generalize sceneAccount tx m emit = m' at hmove
  cases hmove with
  | none | opened | closed | dropped => exact .inl hne
  | released => exact .inr (enterGranting_fresh ..)
  | bye => exact .inl (by simp [enterProbing_state])

/-- What one slot does to the grant window. -/
theorem NextMove.window {m' : Master} {s : Slot} (h : NextMove t tx m m' s) :
    m'.state ≠ .granting ∨ m'.Fresh ∨ m'.hasBox = false ∨
    (m.state = .granting ∧ m.hasBox = true ∧ ∃ m₀ c w,
      (∃ seen tick, m₀ = { m with
        counter := m.counter + 1, boxSeen := seen, presenceTick := tick }) ∧
      declaredSlot t m₀ = (c, w, s) ∧ m' = { m₀ with cad := c, win := w.tick } ∧
      m'.grantDelivered = false) := by
  cases h with
  | hunt h₀ hs =>
    refine Or.imp_right .inl (sceneAccount_window tx _ _ (.inl ?_))
    exact hs
  | grant h₀ hs hb hw hd =>
    rename_i m₀ c w
    have hm₀ := h₀.of_ne_probing (by rw [hs]; decide)
    have hm : m.state = .granting ∧ m.hasBox = true := by
      obtain ⟨seen, tick, rfl⟩ := hm₀
      exact ⟨hs, hb⟩
    exact .inr (.inr (.inr ⟨hm.1, hm.2, m₀, c, w, hm₀, hw, rfl, hd⟩))
  | delivered => exact .inl (by simp [enterEstablished])
  | wait h₀ hs hb => exact .inr (.inr (.inl hb))
  | boxUnknown => exact .inl (by simp [enterProbing_state])
  | locked h₀ hs =>
    refine Or.imp_right .inl (sceneAccount_window tx _ _ (.inr ?_))
    exact hs
  | lost => exact .inl (by simp [enterProbing_state])

theorem windowGrants_fresh (log : List MasterEvent) {e : MasterEvent}
    (hs : e.post.state = .granting) (h : e.post.Fresh) : windowGrants (log ++ [e]) = [] := by
  rw [windowGrants_concat, if_pos]
  simpa [opensWindow] using And.intro hs h.1

/-- A step of a running window. One that leaves the clock at zero has sent nothing. -/
theorem WindowOk.concat {log : List MasterEvent} {e : MasterEvent} (hd : e.post.geo.DwellOk)
    (ok : WindowOk e.post (windowGrants log ++ (e.out.bind Slot.grantIdx).toList)) :
    WindowOk e.post (windowGrants (log ++ [e])) := by
  rw [windowGrants_concat]
  split_ifs with h
  · have ht : e.post.win.grantTicks = 0 := by
      simp only [opensWindow, decide_eq_true_eq] at h
      exact h.2
    have he := ok.ended
    have hlt := ok.ended_lt
    exact .fresh ⟨ht, by omega⟩ hd
  · exact ok

theorem WindowInv.step {log : List MasterEvent} (inv : WindowInv log m)
    (i : HeadampTx × MasterInput)
    (hL : ∀ l ∈ log.getLast?, RegrantFollows l ((masterMachine t).event m i)) :
    WindowInv (log ++ [(masterMachine t).event m i]) (masterStep t m i).1 := by
  have hcont := Continues.step t m i
  have hdwell : (masterStep t m i).1.geo.DwellOk := by rw [hcont.geo]; exact inv.dwell
  refine ⟨by rw [hcont.geo]; exact inv.stride, hdwell, hcont.sweep inv.sweep, ?_⟩
  intro hs hb howed
  replace howed : redeclares ((masterMachine t).event m i) = false :=
    howed _ (by simp)
  have hfresh : (masterStep t m i).1.Fresh →
      WindowOk (masterStep t m i).1 (windowGrants (log ++ [(masterMachine t).event m i])) := by
    intro h
    rw [windowGrants_fresh log (e := (masterMachine t).event m i) hs h]
    exact .fresh h hdwell
  have hkeep : WindowOk (masterStep t m i).1
      (windowGrants log ++ ((masterStep t m i).2.bind Slot.grantIdx).toList) →
      WindowOk (masterStep t m i).1 (windowGrants (log ++ [(masterMachine t).event m i])) :=
    fun ok => WindowOk.concat (e := (masterMachine t).event m i) hdwell ok
  -- Before any call but the regrant, no declaration is pending.
  have hwin : i.2 ≠ .regrant → m.state = .granting → m.hasBox = true →
      WindowOk m (windowGrants log) := by
    intro hi hm hmb
    refine inv.window hm hmb fun l hl => ?_
    by_contra hne
    exact hi (hL l hl (by simpa using hne))
  obtain ⟨tx, i⟩ := i
  cases i with
  | rx ev src blk =>
    rcases (masterRx_move tx m ev src blk).window with h | h | ⟨hm, hw, ha, hburst⟩
    · exact absurd hs h
    · exact hfresh h
    · have hmb : m.hasBox = true := by rw [← hb]; simp only [masterStep, Master.hasBox, ha]
      refine hkeep ?_
      simp only [masterStep, Option.bind_none,
        Option.toList_none, List.append_nil]
      exact (hwin (by simp) hm hmb).congr (by rw [← hw]) (by rw [← hw])
        hcont.geo (by rw [hburst])
  | next =>
    rcases (masterNext_move t tx m).window with h | h | h | ⟨hm, hmb, m₀, c, w, hm₀, hw, heq, hdel⟩
    · exact absurd hs h
    · exact hfresh h
    · exact absurd (hb.symm.trans h) (by simp)
    · refine hkeep ?_
      simp only [masterStep, Option.bind_some]
      have hlen := inv.len_pos hmb
      obtain ⟨seen, tick, rfl⟩ := hm₀
      have hslot := WindowOk.slot (m := { m with
          counter := m.counter + 1, boxSeen := seen, presenceTick := tick })
        ((hwin (by simp) hm hmb).congr rfl rfl rfl rfl) inv.stride inv.dwell hmb
        inv.sweep.length_le (by dsimp only; omega) hw
      rw [heq] at hdel ⊢
      exact hslot.2 hdel
  | regrant => exact hfresh (enterGranting_fresh ..)
  | setHeadampSrc present =>
    obtain ⟨rows, h₁, -, heq⟩ := masterSetHeadampSrc_eq tx m present
    have hm : m.state = .granting := by simpa [masterStep, heq] using hs
    have hmb : m.hasBox = true := by simpa [masterStep, heq, Master.hasBox] using hb
    refine hkeep ?_
    simp only [masterStep, Option.bind_none, Option.toList_none, List.append_nil, heq]
    refine (hwin (by simp) hm hmb).congr rfl rfl rfl ?_
    rw [(h₁ hmb).length.1, (inv.sweep.1 hmb).length.1]
  | setBox inCh outCh base =>
    have hredecl : ¬ (m.state = .granting ∧ m.hasBox = true) := by
      simpa [redeclares, MasterInput.isSetBox] using howed
    rcases masterSetBox_cases tx m inCh outCh base with h | ⟨a, rows, h, -⟩
    · simp only [masterStep, h] at hs hb
      exact absurd ⟨hs, hb⟩ hredecl
    · have hm : m.state = .granting := by simpa [masterStep, h, Master.declared] using hs
      have hmb : m.hasBox = false := by simpa [hm] using hredecl
      refine hfresh ?_
      simp [masterStep, h, Master.declared, Master.Fresh, hm, hmb]

theorem windowInv_init (t : MasterTunables) (placeholder : SceneBody) (src : Mac)
    (cfg : Option ConsoleCfg) {fps : ℤ} (hfits : DwellFits t (initFps fps)) :
    WindowInv [] (masterInit t placeholder src cfg fps) := by
  obtain ⟨blk, desc, h⟩ := masterInit_eq t placeholder src cfg fps
  rw [h]
  refine ⟨rfl, hfits.geometry, ⟨fun hb => ?_, fun _ => rfl⟩, ?_⟩
  · simp [Master.hasBox, GrantAlloc.none] at hb
  · simp

/-- Only the slot that delivers the last row establishes the link. -/
theorem WindowInv.establish {log : List MasterEvent} (inv : WindowInv log m)
    {i : HeadampTx × MasterInput}
    (hL : ∀ l ∈ log.getLast?, RegrantFollows l ((masterMachine t).event m i))
    (hpre : m.state = .granting) (hpost : (masterStep t m i).1.state = .established) :
    (masterStep t m i).1.grantBurst = m.grantBurst ∧ (masterStep t m i).1.alloc = m.alloc ∧
      m.hasBox = true ∧
      windowGrants (log ++ [(masterMachine t).event m i])
        = (List.range m.grantBurst.length).map Int.ofNat := by
  have hwin : i.2 ≠ .regrant → m.hasBox = true → WindowOk m (windowGrants log) := by
    intro hi hmb
    refine inv.window hpre hmb fun l hl => ?_
    by_contra hne
    exact hi (hL l hl (by simpa using hne))
  obtain ⟨tx, i⟩ := i
  cases i with
  | rx ev src blk =>
    exfalso
    have hmove := masterRx_move tx m ev src blk
    simp only [masterStep] at hpost
    generalize (masterRx tx m ev src blk).1 = m', (masterRx tx m ev src blk).2 = r at hmove hpost
    cases hmove with
    | refused => simp [hpre] at hpost
    | stay _ h₁ =>
      obtain ⟨seen, lc, rfl⟩ := h₁
      simp [started_of_ne, hpre] at hpost
    | held _ hs => simp [holdJoin, hs] at hpost
    | latch | relatch => simp [enterGranting_state] at hpost
    | accept _ h₁ _ hd =>
      obtain ⟨seen, lc, rfl⟩ := h₁.of_ne_idle (by rw [hpre]; decide)
      have hmb : m.hasBox = true := by
        simp only [Master.grantDelivered, decide_eq_true_eq] at hd
        exact hd.1
      have ok := hwin (by simp) hmb
      have hnot := (grantDelivered_eq_false_iff inv.stride inv.dwell ok.ended_le inv.sweep.length_le
        hmb).mpr ok.running
      exact absurd (hd.symm.trans hnot) (by simp)
    | bye => simp [enterProbing_state] at hpost
  | next =>
    have hmove := masterNext_move t tx m
    simp only [masterStep] at hpost ⊢
    generalize hnext : masterNext t tx m = r at hmove hpost
    obtain ⟨m', s⟩ := r
    have hout : ((masterMachine t).event m (tx, .next)).out = some s := by
      simp [masterMachine, masterStep, hnext]
    dsimp only at hmove hpost ⊢
    have hstate : ∀ {m₀ : Master}, Ticked m m₀ → m₀.state = .granting := by
      intro m₀ h₀
      exact (h₀.state (by rw [hpre]; decide)).trans hpre
    cases hmove with
    | hunt h₀ hs | locked h₀ hs | lost h₀ hs => simp [hstate h₀] at hs
    | grant h₀ hs => simp [hs] at hpost
    | wait h₀ hs => simp [hs] at hpost
    | boxUnknown => simp [enterProbing_state] at hpost
    | delivered h₀ hs hb hw hd =>
      obtain ⟨seen, tick, rfl⟩ := h₀.of_ne_idle (by rw [hpre]; decide)
      have hmb : m.hasBox = true := hb
      have hlen := inv.len_pos hmb
      have hslot := WindowOk.slot (m := { m with
          counter := m.counter + 1, boxSeen := seen, presenceTick := tick })
        ((hwin (by simp) hmb).congr rfl rfl rfl rfl) inv.stride inv.dwell hmb
        inv.sweep.length_le (by dsimp only; omega) hw
      refine ⟨rfl, rfl, hmb, ?_⟩
      rw [windowGrants_concat, if_neg, hout]
      · exact hslot.1 hd
      · simp [opensWindow, masterMachine, masterStep, hnext, enterEstablished]
  | regrant => simp [masterStep, masterRegrant, enterGranting_state] at hpost
  | setHeadampSrc present =>
    obtain ⟨rows, -, -, heq⟩ := masterSetHeadampSrc_eq tx m present
    simp [masterStep, heq, hpre] at hpost
  | setBox inCh outCh base =>
    rcases masterSetBox_cases tx m inCh outCh base with h | ⟨a, rows, h, -⟩ <;>
      simp [masterStep, h, Master.declared, hpre] at hpost

/-- Where the dwell fits an `int`, the box is enrolled in full before the link counts as established. -/
theorem grant_window_complete (t : MasterTunables) (placeholder : SceneBody) (src : Mac)
    (cfg : Option ConsoleCfg) (fps : ℤ) (hfits : DwellFits t (initFps fps))
    (is : List (HeadampTx × MasterInput))
    (hregrant : ((masterMachine t).trace (masterInit t placeholder src cfg fps) is).IsChain
      RegrantFollows)
    {log : List MasterEvent} {e : MasterEvent}
    (he : (masterMachine t).StepOf (masterInit t placeholder src cfg fps) is log e)
    (hpre : e.pre.state = .granting) (hpost : e.post.state = .established) :
    grantsOf (sinceLast opensWindow (log ++ [e]))
        = (List.range e.post.grantBurst.length).map Int.ofNat ∧
      e.post.grantBurst.length = 8 + 3 * e.post.alloc.width ∧ 0 < e.post.alloc.width := by
  have hL : ∀ log e, (masterMachine t).StepOf (masterInit t placeholder src cfg fps) is log e →
      ∀ l ∈ log.getLast?, RegrantFollows l e :=
    fun log e he => Reactive.Machine.StepOf.of_isChain (masterMachine t) hregrant he
  obtain ⟨inv, heq⟩ := (masterMachine t).trace_invariant_at (H := WindowInv)
    (L := fun log e => ∀ l ∈ log.getLast?, RegrantFollows l e)
    (windowInv_init t placeholder src cfg hfits) (fun _ _ i inv hl => inv.step i hl) hL he
  have hLe := hL log e he
  rw [heq] at hpost hLe ⊢
  obtain ⟨hburst, halloc, hb, hgrants⟩ := inv.establish hLe hpre hpost
  have hlen := inv.len_pos hb
  rw [← hburst, ← halloc] at hlen
  rw [← hburst] at hgrants
  exact ⟨hgrants, hlen⟩

/-- A master at 48 kHz with a dwell of 1 ms. -/
def narrowMaster : Master :=
  masterInit { grantDwellMs := 1 } (Vector.replicate 8904 0) (Vector.replicate 6 1) none 4000

/-- A box of one channel, declared, moved to another base and granted again. -/
def narrowRun : List (HeadampTx × MasterInput) :=
  [(headampTxInit, .setBox 1 0 0), (headampTxInit, .regrant), (headampTxInit, .next),
    (headampTxInit, .setBox 1 0 16), (headampTxInit, .regrant)]
    ++ List.replicate 136 (headampTxInit, .next)

theorem grant_window_complete_narrow :
    let M := masterMachine { grantDwellMs := 1 }
    (M.run narrowMaster narrowRun).state = .granting ∧
    grantsOf (sinceLast opensWindow (M.trace narrowMaster (narrowRun ++ [(headampTxInit, .next)])))
      = (List.range 11).map Int.ofNat := by
  refine ⟨by decide +kernel, ?_⟩
  have h := (grant_window_complete { grantDwellMs := 1 } (Vector.replicate 8904 0)
    (Vector.replicate 6 1) none 4000 (by decide) (narrowRun ++ [(headampTxInit, .next)]) (by decide +kernel)
    (Reactive.Machine.stepOf_last _ _ _ _) (by decide +kernel) (by decide +kernel)).1
  rw [Reactive.Machine.trace_concat]
  refine h.trans ?_
  decide +kernel

/-- An hour's hold at 600000 slots a second is a negative number of slots: a box of sixteen inputs
is established by the first slot of its window, which carries no grant. -/
theorem long_dwell_grants_nothing :
    let t : MasterTunables := { grantDwellS := 3600 }
    let m := masterInit t (Vector.replicate 8904 0) (Vector.replicate 6 1) none 600000
    let is := [(headampTxInit, .setBox 16 8 0), (headampTxInit, .regrant)]
    let e := (masterMachine t).event ((masterMachine t).run m is) (headampTxInit, .next)
    e.pre.state = .granting ∧ e.post.state = .established ∧ e.post.grantBurst.length = 56 ∧
      grantsOf (sinceLast opensWindow ((masterMachine t).trace m is ++ [e])) = [] := by
  decide +kernel

end Libreac
