import Libreac.Proofs.AnnounceProofs
import Libreac.Proofs.WindowProofs

/-!
# Proofs: the dwell of a grant window

A window arms the box with an ENROLL in its first slot, and again whenever the box declares itself
anew during the dwell. `WindowStep` lists what a call can do to a window, and `DwellSlot` what a slot
of it carries; from them follow how often one width is enrolled and how long the first grant waits.
-/

namespace Libreac

open Reactive (sinceLast sinceLast_concat)

variable {t : MasterTunables} {tx : HeadampTx} {m : Master}

/-! ## One slot of the window -/

/-- What a slot to a box of known width carries, and the window it leaves. -/
inductive DwellSlot (t : MasterTunables) (m : Master) : Window → Slot → Prop where
  /-- The first slot arms the box. -/
  | arm (h : m.win.grantTicks = 0) : DwellSlot t m m.win (enrollSlot t)
  /-- The box declared itself anew. -/
  | rearm (h : m.win.grantTicks ≠ 0) (hcap : m.win.grantTicks ≤ m.geo.grantDwell)
      (hended : ¬ 0 < m.win.dwellEndedTick) (hpending : m.win.enrollPending = true) :
      DwellSlot t m
        { m.win with enrollPending := false, enrollSentTick := m.win.grantTicks } (enrollSlot t)
  /-- The dwell goes on. -/
  | hold (h : m.win.grantTicks ≠ 0) (hcap : m.win.grantTicks ≤ m.geo.grantDwell)
      (hended : ¬ 0 < m.win.dwellEndedTick) (harmed : m.declaredAndArmed t = false)
      (hpending : m.win.enrollPending = false) {s : Slot} (hs : s.emit ≠ .enroll) :
      DwellSlot t m m.win s
  /-- The dwell ends with this slot. -/
  | latch (h : m.win.grantTicks ≠ 0) (hcap : m.win.grantTicks ≤ m.geo.grantDwell)
      (hended : ¬ 0 < m.win.dwellEndedTick) (harmed : m.declaredAndArmed t = true) {s : Slot}
      (hs : s.emit ≠ .enroll) :
      DwellSlot t m { m.win with dwellEndedTick := m.win.grantTicks } s
  /-- The dwell is over, ended or past its cap. -/
  | burst (h : m.win.grantTicks ≠ 0)
      (hover : 0 < m.win.dwellEndedTick ∨ m.geo.grantDwell < m.win.grantTicks) {s : Slot}
      (hs : s.emit ≠ .enroll) : DwellSlot t m m.win s

theorem burstWindowSlot_ne_enroll (m : Master) : (burstWindowSlot m).2.emit ≠ .enroll := by
  unfold burstWindowSlot
  split
  · exact nofun
  · split <;> exact nofun

theorem dwellSlot_ne_enroll (g : Geometry) (c : Cadence) : (dwellSlot g c).2.emit ≠ .enroll := by
  unfold dwellSlot
  split
  · exact nofun
  · split_ifs <;> exact nofun

/-- Every slot to a box of known width is one of these. -/
theorem declaredSlot_dwell (t : MasterTunables) (m : Master) :
    DwellSlot t m (declaredSlot t m).2.1 (declaredSlot t m).2.2 := by
  unfold declaredSlot
  by_cases hzero : m.win.grantTicks = 0
  · rw [if_pos hzero]
    exact .arm hzero
  rw [if_neg hzero]
  by_cases hcap : m.win.grantTicks ≤ m.geo.grantDwell
  · rw [if_pos hcap]
    unfold dwellEndsNow
    by_cases hended : 0 < m.win.dwellEndedTick
    · rw [if_pos hended]
      exact .burst hzero (.inl hended) (burstWindowSlot_ne_enroll _)
    rw [if_neg hended]
    cases harmed : m.declaredAndArmed t with
    | true =>
      rw [if_pos rfl]
      exact .latch hzero hcap hended harmed (burstWindowSlot_ne_enroll _)
    | false =>
      rw [if_neg (by decide)]
      dsimp only
      cases hpending : m.win.enrollPending with
      | true =>
        rw [if_pos rfl]
        exact .rearm hzero hcap hended hpending
      | false =>
        rw [if_neg (by decide)]
        exact .hold hzero hcap hended harmed hpending (dwellSlot_ne_enroll _ _)
  · rw [if_neg hcap]
    exact .burst hzero (.inr (by omega)) (burstWindowSlot_ne_enroll _)

/-! ## One call -/

/-- What a call does to the grant window. -/
inductive WindowStep (t : MasterTunables) (m : Master) (i : MasterInput) (m' : Master)
    (out : Option Slot) : Prop where
  /-- There is no window, before or after. -/
  | outside (hs : m.state ≠ .granting) (hs' : m'.state ≠ .granting)
      (hout : ∀ s ∈ out, s.emit ≠ .enroll)
  /-- A window is opened, or starts over. -/
  | opened (hs' : m'.state = .granting) (hf : m'.Fresh)
  /-- The box leaves. -/
  | left (hs : m.state = .granting) (hs' : m'.state = .probing) (hout : out = none)
  /-- The box accepts a delivered grant. -/
  | accepted (hs : m.state = .granting) (hb : m.hasBox = true) (hs' : m'.state = .established)
      (hburst : m'.grantBurst = m.grantBurst) (hout : out = none)
  /-- The window is not touched. -/
  | kept (hs : m.state = .granting) (hs' : m'.state = .granting) (hw : m'.win = m.win)
      (ha : m'.alloc = m.alloc) (hout : out = none)
  /-- The box of the window declares itself anew. -/
  | redeclared (hs : m.state = .granting) (hb : m.hasBox = true) {inCh outCh base : ℤ}
      (hi : i = .setBox inCh outCh base) {a : GrantAlloc} (ha : grantAllocate base inCh = some a)
      {rows : List Template} (hm' : m' = m.declared a rows) (hout : out = none)
  /-- A slot to a box of known width. -/
  | slot (hs : m.state = .granting) (hb : m.hasBox = true) (hi : i = .next) {c : Cadence}
      {w : Window} {s : Slot} (hw : declaredSlot t m = (c, w, s)) (hout : out = some s)
      (hwin : m'.win = w.tick) (ha : m'.alloc = m.alloc) (hburst : m'.grantBurst = m.grantBurst)
      (hend : m'.state = .granting ∧ m'.grantDelivered = false ∨ m'.state = .established)
  /-- A slot of a window that waits for the box to declare itself. -/
  | wait (hs : m.state = .granting) (hb : m.hasBox = false) {s : Slot} (hout : out = some s)
      (henroll : s.emit = .enroll → m.win.grantTicks = 0) (hwin : m'.win = m.win.tick)
      (ha : m'.alloc = m.alloc) (hs' : m'.state = .granting)
  /-- The last slot of such a window. -/
  | unknown (hs : m.state = .granting) (hb : m.hasBox = false) {s : Slot} (hout : out = some s)
      (henroll : s.emit = .enroll → m.win.grantTicks = 0) (hs' : m'.state = .probing)

theorem RxMove.windowStep {m' : Master} {ev : RxEvent} {src : Mac} {blk : Option Block} {r : Bool}
    (h : RxMove tx m ev src blk m' r) : WindowStep t m (.rx ev src blk) m' none := by
  have hprobing : ∀ {m₁ : Master}, Heard m m₁ → m₁.state = .probing → m.state ≠ .granting := by
    intro m₁ h₁ hp hs
    obtain ⟨seen, lc, rfl⟩ := h₁.of_ne_idle (by rw [hs]; decide)
    rw [show m.state = .probing from hp] at hs
    cases hs
  cases h with
  | refused =>
    by_cases hs : m.state = .granting
    · exact .kept hs hs rfl rfl rfl
    · exact .outside hs hs nofun
  | @stay _ m₁ h₁ =>
    by_cases hp : m'.state = .probing
    · exact .outside (hprobing h₁ hp) (by rw [hp]; decide) nofun
    · obtain ⟨seen, lc, rfl⟩ := h₁.of_ne_probing hp
      by_cases hs : m.state = .granting
      · exact .kept hs hs rfl rfl rfl
      · exact .outside hs hs nofun
  | held h₁ hp =>
    refine .outside (hprobing h₁ hp) ?_ nofun
    exact ne_of_eq_of_ne hp (by decide)
  | latch | relatch => exact .opened (enterGranting_state ..) (enterGranting_fresh ..)
  | accept _ h₁ hs hd =>
    obtain ⟨seen, lc, rfl⟩ := h₁.of_ne_probing (by rw [hs]; decide)
    exact .accepted hs (of_decide_eq_true hd).1 rfl rfl rfl
  | bye _ h₁ hs =>
    by_cases hg : m.state = .granting
    · exact .left hg (enterProbing_state _) rfl
    · exact .outside hg (by rw [enterProbing_state]; decide) nofun

theorem undeclaredSlot_enroll (m : Master) (h : (undeclaredSlot m).2.emit = .enroll) :
    m.win.grantTicks = 0 := by
  unfold undeclaredSlot at h
  split_ifs at h with hzero
  · exact hzero
  · exact absurd h (dwellSlot_ne_enroll _ _)

theorem NextMove.windowStep {m' : Master} {s : Slot} (h : NextMove t tx m m' s) :
    WindowStep t m .next m' (some s) := by
  have houtside : ∀ {m₀ : Master}, Ticked m m₀ → m₀.state ≠ .granting → m.state ≠ .granting := by
    intro m₀ h₀ hne hs
    obtain ⟨seen, tick, rfl⟩ := h₀.of_ne_idle (by rw [hs]; decide)
    exact hne hs
  have hcadence : ∀ {m₀ : Master} {c : Cadence}, controlCadence t m₀ = (c, s) →
      ∀ s' ∈ some s, s'.emit ≠ .enroll := by
    rintro m₀ c hc s' ⟨⟩
    have hne := (controlCadence_emit t m₀).2.1
    rwa [hc] at hne
  cases h with
  | @hunt m₀ h₀ hs c s hc blk desc =>
    rcases sceneAccount_window tx { m₀ with cad := c, sceneBlk := blk, fillerDesc := desc } s.emit
      (.inl hs) with hout | hfresh
    · exact .outside (houtside h₀ (by rw [hs]; decide)) hout (hcadence hc)
    · by_cases hg : (sceneAccount tx
        { m₀ with cad := c, sceneBlk := blk, fillerDesc := desc } s.emit).state = .granting
      · exact .opened hg hfresh
      · exact .outside (houtside h₀ (by rw [hs]; decide)) hg (hcadence hc)
  | grant h₀ hs hb hw hd =>
    obtain ⟨seen, tick, rfl⟩ := h₀.of_ne_probing (by rw [hs]; decide)
    exact .slot hs hb rfl hw rfl rfl rfl rfl (.inl ⟨hs, hd⟩)
  | delivered h₀ hs hb hw hd =>
    obtain ⟨seen, tick, rfl⟩ := h₀.of_ne_probing (by rw [hs]; decide)
    exact .slot hs hb rfl hw rfl rfl rfl rfl (.inr rfl)
  | @wait m₀ h₀ hs hb c s hw =>
    obtain ⟨seen, tick, rfl⟩ := h₀.of_ne_probing (by rw [hs]; decide)
    have hslot : undeclaredSlot m = (c, s) := hw
    exact .wait hs hb rfl (fun henroll => undeclaredSlot_enroll m (by rw [hslot]; exact henroll))
      rfl rfl hs
  | @boxUnknown m₀ h₀ hs hb c s hw =>
    obtain ⟨seen, tick, rfl⟩ := h₀.of_ne_probing (by rw [hs]; decide)
    have hslot : undeclaredSlot m = (c, s) := hw
    exact .unknown hs hb rfl (fun henroll => undeclaredSlot_enroll m (by rw [hslot]; exact henroll))
      (enterProbing_state _)
  | @locked m₀ h₀ hs c s hc lc blk desc =>
    have hne := houtside h₀ (by rw [hs]; decide)
    rcases sceneAccount_window tx { m₀ with
      cad := c, linkCheck := lc, sceneBlk := blk, fillerDesc := desc } s.emit (.inr hs)
      with hout | hfresh
    · exact .outside hne hout (hcadence hc)
    · by_cases hg : (sceneAccount tx { m₀ with
        cad := c, linkCheck := lc, sceneBlk := blk, fillerDesc := desc } s.emit).state = .granting
      · exact .opened hg hfresh
      · exact .outside hne hg (hcadence hc)
  | lost h₀ hs hc =>
    refine .outside (houtside h₀ (by rw [hs]; decide)) ?_ (hcadence hc)
    exact ne_of_eq_of_ne (enterProbing_state _) (by decide)

/-- Every call is one of these steps. -/
theorem masterStep_window (t : MasterTunables) (m : Master) (i : HeadampTx × MasterInput) :
    WindowStep t m i.2 (masterStep t m i).1 (masterStep t m i).2 := by
  obtain ⟨tx, i⟩ := i
  cases i with
  | rx ev src blk => exact (masterRx_move tx m ev src blk).windowStep
  | next => exact (masterNext_move t tx m).windowStep
  | regrant => exact .opened (enterGranting_state ..) (enterGranting_fresh ..)
  | setHeadampSrc present =>
    obtain ⟨rows, -, -, heq⟩ := masterSetHeadampSrc_eq tx m present
    simp only [masterStep, heq]
    by_cases hs : m.state = .granting
    · exact .kept hs hs rfl rfl rfl
    · exact .outside hs hs fun s h => absurd h (Option.not_mem_none s)
  | setBox inCh outCh base =>
    simp only [masterStep]
    cases ha : grantAllocate base inCh with
    | none =>
      have heq : masterSetBox tx m inCh outCh base = m := by
        simp only [masterSetBox, rebuildGrantSweep, ha]
      rw [heq]
      by_cases hs : m.state = .granting
      · exact .kept hs hs rfl rfl rfl
      · exact .outside hs hs fun s h => absurd h (Option.not_mem_none s)
    | some a =>
      obtain ⟨rows, heq, -⟩ := masterSetBox_declared tx m outCh ha
      rw [heq]
      by_cases hs : m.state = .granting
      · cases hb : m.hasBox with
        | true => exact .redeclared hs hb rfl ha rfl rfl
        | false =>
          refine .opened hs ?_
          simp [Master.declared, Master.Fresh, hs, hb]
      · exact .outside hs hs fun s h => absurd h (Option.not_mem_none s)

/-! ## The slots of a window -/

/-- The slots since the window opened, each with the width in force. -/
def windowSlots (log : List MasterEvent) : List (ℤ × Slot) :=
  (sinceLast opensWindow log).filterMap fun e => e.out.map fun s => (e.pre.enrollWidth, s)

/-- The width a slot enrols. -/
def enrolsWidth (x : ℤ × Slot) : Option ℤ := if x.2.emit = .enroll then some x.1 else none

/-- The widths the window has enrolled. -/
def windowEnrolls (log : List MasterEvent) : List ℤ := (windowSlots log).filterMap enrolsWidth

theorem windowSlots_opened {log : List MasterEvent} {e : MasterEvent} (h : opensWindow e = true) :
    windowSlots (log ++ [e]) = [] := by
  unfold windowSlots
  rw [sinceLast_concat, if_pos h, List.filterMap_nil]

theorem windowSlots_running {log : List MasterEvent} {e : MasterEvent} (h : opensWindow e = false) :
    windowSlots (log ++ [e]) =
      windowSlots log ++ (e.out.map fun s => (e.pre.enrollWidth, s)).toList := by
  unfold windowSlots
  rw [sinceLast_concat, if_neg (by rw [h]; decide), List.filterMap_append]
  obtain ⟨pre, input, out, post⟩ := e
  cases out <;> rfl

theorem mem_windowEnrolls {log : List MasterEvent} {w : ℤ} (h : w ∈ windowEnrolls log) :
    ∃ x ∈ windowSlots log, x.1 = w := by
  obtain ⟨x, hx, hw⟩ := List.mem_filterMap.mp h
  unfold enrolsWidth at hw
  split_ifs at hw
  exact ⟨x, hx, Option.some.inj hw⟩

/-- The event of a call is a slot of the window unless the call opens one. -/
theorem opensWindow_of_tick {e : MasterEvent} {w : Window} (hwin : e.post.win = w.tick)
    (hticks : 0 ≤ w.grantTicks) : opensWindow e = false := by
  refine decide_eq_false fun h => ?_
  have hzero := h.2
  rw [hwin] at hzero
  simp only [Window.tick] at hzero
  omega

theorem opensWindow_of_state {e : MasterEvent} (h : e.post.state ≠ .granting) :
    opensWindow e = false := decide_eq_false fun ho => h ho.1

theorem enrollWidth_congr {m' : Master} (ha : m'.alloc = m.alloc) : m'.enrollWidth = m.enrollWidth := by
  unfold Master.enrollWidth Master.hasBox
  rw [ha]

theorem hasBox_congr {m' : Master} (ha : m'.alloc = m.alloc) : m'.hasBox = m.hasBox := by
  unfold Master.hasBox
  rw [ha]

/-! ## One ENROLL per width -/

/-- The dwell of the window has neither ended nor reached its cap. -/
def Master.dwelling (m : Master) : Bool :=
  ¬ 0 < m.win.dwellEndedTick ∧ m.win.grantTicks ≤ m.geo.grantDwell

/-- The width a call declares to a window whose box is known already. -/
def redeclaredWidth (e : MasterEvent) : Option ℤ :=
  match e.input.2 with
  | .setBox inCh _ base =>
    if e.pre.state = .granting ∧ e.pre.hasBox ∧ (grantAllocate base inCh).isSome then some inCh
    else none
  | _ => none

/-- A step that leaves no width to be enrolled twice: a window whose box is known reaches its first
slot with no declaration pending, and a declaration made during its dwell brings a width that none of
its slots went out with. -/
def EnrolsOnce (log : List MasterEvent) (e : MasterEvent) : Prop :=
  (e.input.2 = .next → e.pre.state = .granting → e.pre.hasBox = true → e.pre.win.grantTicks = 0 →
    e.pre.win.enrollPending = false) ∧
  (∀ w ∈ redeclaredWidth e, e.pre.dwelling = true → ∀ x ∈ windowSlots log, x.1 ≠ w)

instance (log : List MasterEvent) (e : MasterEvent) : Decidable (EnrolsOnce log e) :=
  inferInstanceAs (Decidable (_ ∧ _))

/-- Where a run stands: the window has enrolled no width twice, its clock counts its slots, and what
is pending has not been enrolled yet. -/
structure OnceInv (log : List MasterEvent) (m : Master) : Prop where
  nodup : (windowEnrolls log).Nodup
  ticks : m.state = .granting → m.win.grantTicks = (windowSlots log).length
  pending : m.state = .granting → m.hasBox = true → m.win.enrollPending = true →
    0 < m.win.grantTicks → m.dwelling = true → m.enrollWidth ∉ windowEnrolls log

/-- A window that has just been opened. -/
theorem OnceInv.opened {log : List MasterEvent} {e : MasterEvent} (hs : e.post.state = .granting)
    (hf : e.post.Fresh) : OnceInv (log ++ [e]) e.post := by
  have hempty : windowSlots (log ++ [e]) = [] := windowSlots_opened (decide_eq_true ⟨hs, hf.1⟩)
  refine ⟨?_, fun _ => ?_, fun _ _ _ hpos => absurd hf.1 (by omega)⟩
  · unfold windowEnrolls
    rw [hempty]
    exact List.nodup_nil
  · rw [hempty]
    exact hf.1

/-- A call without a slot that leaves the window as it was, or no window. -/
theorem OnceInv.silent {log : List MasterEvent} {e : MasterEvent} (h : OnceInv log m)
    (hout : e.out = none) (hpost : e.post.state = .granting →
      m.state = .granting ∧ e.post.win.grantTicks = m.win.grantTicks ∧
        (e.post.hasBox = true → e.post.win.enrollPending = true → 0 < e.post.win.grantTicks →
          e.post.dwelling = true → e.post.enrollWidth ∉ windowEnrolls log)) :
    OnceInv (log ++ [e]) e.post := by
  by_cases ho : opensWindow e = true
  · have hopen := of_decide_eq_true ho
    have hempty : windowSlots (log ++ [e]) = [] := windowSlots_opened ho
    refine ⟨?_, fun _ => ?_, fun _ _ _ hpos => absurd hopen.2 (by omega)⟩
    · unfold windowEnrolls
      rw [hempty]
      exact List.nodup_nil
    · rw [hempty]
      exact hopen.2
  · have hslots : windowSlots (log ++ [e]) = windowSlots log := by
      rw [windowSlots_running (Bool.of_not_eq_true ho), hout]
      exact List.append_nil _
    have henrolls : windowEnrolls (log ++ [e]) = windowEnrolls log := by
      unfold windowEnrolls
      rw [hslots]
    refine ⟨henrolls ▸ h.nodup, fun hs => ?_, fun hs hb hp hpos hd => ?_⟩
    · rw [hslots, (hpost hs).2.1]
      exact h.ticks (hpost hs).1
    · rw [henrolls]
      exact (hpost hs).2.2 hb hp hpos hd

theorem windowEnrolls_slot {log : List MasterEvent} {e : MasterEvent} {s : Slot}
    (h : opensWindow e = false) (hout : e.out = some s) :
    windowEnrolls (log ++ [e]) =
      windowEnrolls log ++ (if s.emit = .enroll then [e.pre.enrollWidth] else []) := by
  unfold windowEnrolls
  rw [windowSlots_running h, hout, List.filterMap_append]
  congr 1
  simp only [Option.map_some, Option.toList_some, List.filterMap_cons, List.filterMap_nil, enrolsWidth]
  split_ifs <;> rfl

theorem OnceInv.fresh_enrolls {log : List MasterEvent} (h : OnceInv log m) (hs : m.state = .granting)
    (hzero : m.win.grantTicks = 0) : windowEnrolls log = [] := by
  have hlen := h.ticks hs
  have hempty : windowSlots log = [] := List.eq_nil_of_length_eq_zero (by omega)
  unfold windowEnrolls
  rw [hempty, List.filterMap_nil]

/-- A slot of the window that enrols a width for the first time, or none. -/
theorem OnceInv.slot {log : List MasterEvent} {e : MasterEvent} (h : OnceInv log e.pre) {s : Slot}
    (hout : e.out = some s) (hopen : opensWindow e = false)
    (hnew : s.emit = .enroll → e.pre.enrollWidth ∉ windowEnrolls log)
    (hticks : e.post.state = .granting → e.pre.state = .granting ∧
      e.post.win.grantTicks = e.pre.win.grantTicks + 1)
    (hpending : e.post.state = .granting → e.post.hasBox = true → e.post.win.enrollPending = true →
      e.post.dwelling = true → s.emit ≠ .enroll ∧ e.post.enrollWidth ∉ windowEnrolls log) :
    OnceInv (log ++ [e]) e.post := by
  have henrolls : windowEnrolls (log ++ [e]) =
      windowEnrolls log ++ (if s.emit = .enroll then [e.pre.enrollWidth] else []) :=
    windowEnrolls_slot hopen hout
  refine ⟨?_, fun hs => ?_, fun hs hb hp _ hd => ?_⟩
  · rw [henrolls]
    split_ifs with henroll
    · refine List.nodup_append.mpr ⟨h.nodup, by simp, ?_⟩
      rintro a ha b hb rfl
      exact hnew henroll (List.mem_singleton.mp hb ▸ ha)
    · rw [List.append_nil]
      exact h.nodup
  · have hlen := h.ticks (hticks hs).1
    rw [windowSlots_running hopen, hout, (hticks hs).2, hlen]
    simp
  · obtain ⟨hno, hold⟩ := hpending hs hb hp hd
    rw [henrolls, if_neg hno, List.append_nil]
    exact hold

theorem redeclaredWidth_eq {e : MasterEvent} {inCh outCh base : ℤ} {a : GrantAlloc}
    (hi : e.input.2 = .setBox inCh outCh base) (hs : e.pre.state = .granting)
    (hb : e.pre.hasBox = true) (ha : grantAllocate base inCh = some a) :
    redeclaredWidth e = some inCh := by
  unfold redeclaredWidth
  rw [hi]
  dsimp only
  rw [if_pos ⟨hs, hb, by rw [ha]; rfl⟩]

theorem declared_win {a : GrantAlloc} {rows : List Template} (hb : m.hasBox = true) :
    (m.declared a rows).win = { m.win with enrollPending := true } := by
  simp [Master.declared, hb]

theorem declared_enrollWidth {inCh base : ℤ} {a : GrantAlloc} {rows : List Template}
    (ha : grantAllocate base inCh = some a) : (m.declared a rows).enrollWidth = inCh := by
  obtain ⟨-, hwidth, hpos⟩ := grantAllocate_eq_some ha
  have hb : (m.declared a rows).hasBox = true := hasBox_iff.mpr hpos
  unfold Master.enrollWidth
  rw [if_pos hb]
  exact hwidth

/-- A slot to a box of known width enrols it at most once, whatever the dwell makes of it. -/
theorem OnceInv.dwelt {log : List MasterEvent} {e : MasterEvent} (h : OnceInv log e.pre)
    (hs : e.pre.state = .granting) (hb : e.pre.hasBox = true) {w : Window} {s : Slot}
    (hslot : DwellSlot t e.pre w s) (hout : e.out = some s) (hwin : e.post.win = w.tick)
    (hgeo : e.post.geo = e.pre.geo)
    (hfirst : e.pre.win.grantTicks = 0 → e.pre.win.enrollPending = false) : OnceInv (log ++ [e]) e.post := by
  have hnonneg : 0 ≤ e.pre.win.grantTicks := by
    have := h.ticks hs
    omega
  cases hslot with
  | arm hzero =>
    refine h.slot hout (opensWindow_of_tick hwin hnonneg) (fun _ => ?_)
      (fun _ => ⟨hs, by rw [hwin]; rfl⟩) fun _ _ hp _ => ?_
    · rw [h.fresh_enrolls hs hzero]
      exact List.not_mem_nil
    · rw [hwin] at hp
      exact absurd (hp.symm.trans (hfirst hzero)) (by decide)
  | rearm hzero hcap hended hpending =>
    refine h.slot hout (opensWindow_of_tick hwin hnonneg) (fun _ => ?_)
      (fun _ => ⟨hs, by rw [hwin]; rfl⟩) fun _ _ hp _ => ?_
    · exact h.pending hs hb hpending (by omega) (decide_eq_true ⟨hended, hcap⟩)
    · rw [hwin] at hp
      cases hp
  | hold hzero hcap hended harmed hpending hne =>
    refine h.slot hout (opensWindow_of_tick hwin hnonneg) (fun henroll => absurd henroll hne)
      (fun _ => ⟨hs, by rw [hwin]; rfl⟩) fun _ _ hp _ => ?_
    rw [hwin] at hp
    exact absurd (hp.symm.trans hpending) (by decide)
  | latch hzero hcap hended harmed hne =>
    refine h.slot hout (opensWindow_of_tick hwin hnonneg) (fun henroll => absurd henroll hne)
      (fun _ => ⟨hs, by rw [hwin]; rfl⟩) fun _ _ _ hd => ?_
    have hstill := (of_decide_eq_true hd).1
    rw [hwin] at hstill
    simp only [Window.tick] at hstill
    omega
  | burst hzero hover hne =>
    refine h.slot hout (opensWindow_of_tick hwin hnonneg) (fun henroll => absurd henroll hne)
      (fun _ => ⟨hs, by rw [hwin]; rfl⟩) fun _ _ _ hd => ?_
    obtain ⟨hstill, hcap⟩ := of_decide_eq_true hd
    rw [hwin] at hstill hcap
    rw [hgeo] at hcap
    simp only [Window.tick] at hstill hcap
    omega

/-- One call leaves no width to be enrolled twice. -/
theorem OnceInv.step {log : List MasterEvent} (h : OnceInv log m) (i : HeadampTx × MasterInput)
    (hL : EnrolsOnce log ((masterMachine t).event m i)) :
    OnceInv (log ++ [(masterMachine t).event m i]) (masterStep t m i).1 := by
  obtain ⟨hfirst, hanew⟩ := hL
  have hstep : WindowStep t ((masterMachine t).event m i).pre ((masterMachine t).event m i).input.2
      ((masterMachine t).event m i).post ((masterMachine t).event m i).out := masterStep_window t m i
  have hgeo : ((masterMachine t).event m i).post.geo = ((masterMachine t).event m i).pre.geo :=
    (Continues.step t m i).geo
  change OnceInv log ((masterMachine t).event m i).pre at h
  change OnceInv _ ((masterMachine t).event m i).post
  generalize (masterMachine t).event m i = e at *
  cases hstep with
  | outside hs hs' hout =>
    cases ho : e.out with
    | none => exact h.silent ho fun hg => absurd hg hs'
    | some s =>
      refine h.slot ho (opensWindow_of_state hs') (fun henroll => ?_) (fun hg => absurd hg hs')
        fun hg => absurd hg hs'
      exact absurd henroll (hout s (by rw [ho]; rfl))
  | opened hs' hf => exact .opened hs' hf
  | left _ hs' hout => exact h.silent hout fun hg => absurd (hs'.symm.trans hg) (by decide)
  | accepted _ _ hs' _ hout => exact h.silent hout fun hg => absurd (hs'.symm.trans hg) (by decide)
  | kept hs hs' hw ha hout =>
    refine h.silent hout fun _ => ⟨hs, by rw [hw], fun hb hp hpos hd => ?_⟩
    rw [hasBox_congr ha] at hb
    rw [hw] at hp hpos
    unfold Master.dwelling at hd
    rw [hw, hgeo] at hd
    rw [enrollWidth_congr ha]
    exact h.pending hs hb hp hpos hd
  | @redeclared hs hb inCh outCh base hi a ha rows hm' hout =>
    have hwin : e.post.win = { e.pre.win with enrollPending := true } := by rw [hm', declared_win hb]
    refine h.silent hout fun _ => ⟨hs, by rw [hwin], fun _ _ _ hd hmem => ?_⟩
    unfold Master.dwelling at hd
    rw [hwin, hgeo] at hd
    obtain ⟨x, hx, hw⟩ := mem_windowEnrolls hmem
    rw [hm', declared_enrollWidth ha] at hw
    exact hanew inCh (redeclaredWidth_eq hi hs hb ha) hd x hx hw
  | @slot hs hb hi c w s hw hout hwin ha hburst hend =>
    have hslot := declaredSlot_dwell t e.pre
    rw [hw] at hslot
    exact h.dwelt hs hb hslot hout hwin hgeo (hfirst hi hs hb)
  | @wait hs hb s hout henroll hwin ha hs' =>
    have hnonneg : 0 ≤ e.pre.win.grantTicks := by
      have := h.ticks hs
      omega
    refine h.slot hout (opensWindow_of_tick hwin hnonneg) (fun hen => ?_)
      (fun _ => ⟨hs, by rw [hwin]; rfl⟩) fun _ hb' => ?_
    · rw [h.fresh_enrolls hs (henroll hen)]
      exact List.not_mem_nil
    · rw [hasBox_congr ha, hb] at hb'
      cases hb'
  | @unknown hs hb s hout henroll hs' =>
    have hne : e.post.state ≠ .granting := by rw [hs']; decide
    refine h.slot hout (opensWindow_of_state hne) (fun hen => ?_) (fun hg => absurd hg hne)
      fun hg => absurd hg hne
    rw [h.fresh_enrolls hs (henroll hen)]
    exact List.not_mem_nil

theorem onceInv_init (t : MasterTunables) (placeholder : SceneBody) (src : Mac)
    (cfg : Option ConsoleCfg) (fps : ℤ) : OnceInv [] (masterInit t placeholder src cfg fps) := by
  obtain ⟨blk, desc, heq⟩ := masterInit_eq t placeholder src cfg fps
  rw [heq]
  exact ⟨List.nodup_nil, nofun, nofun⟩

/-- In a run whose steps leave no width to be enrolled twice, every grant window enrols each width at
most once. -/
theorem window_enrols_once (t : MasterTunables) (placeholder : SceneBody) (src : Mac)
    (cfg : Option ConsoleCfg) (fps : ℤ) (is : List (HeadampTx × MasterInput))
    (hL : ∀ log e, (masterMachine t).StepOf (masterInit t placeholder src cfg fps) is log e →
      EnrolsOnce log e) :
    (windowEnrolls ((masterMachine t).trace (masterInit t placeholder src cfg fps) is)).Nodup :=
  ((masterMachine t).trace_invariant (onceInv_init t placeholder src cfg fps)
    (fun _ _ i h hl => h.step i hl) is hL).nodup

/-- A desk at 4000 slots a second. -/
def dwellMaster : Master :=
  masterInit {} (Vector.replicate 8904 0) (Vector.replicate 6 1) none 4000

/-- The calls `is`, with the default table. -/
def atDefaults (is : List MasterInput) : List (HeadampTx × MasterInput) := is.map (headampTxInit, ·)

/-- A box that declares itself in a window held open for it, and later a wider return. -/
theorem window_enrols_once_widened :
    let is := atDefaults [.regrant, .next, .setBox 16 8 0, .next, .next, .setBox 32 8 0, .next, .next]
    windowEnrolls ((masterMachine {}).trace dwellMaster is) = [16, 32] ∧
      (windowEnrolls ((masterMachine {}).trace dwellMaster is)).Nodup := by
  refine ⟨by decide +kernel, ?_⟩
  refine window_enrols_once {} (Vector.replicate 8904 0) (Vector.replicate 6 1) none 4000 _ ?_
  apply Reactive.Machine.forall_stepOf
  decide +kernel

/-- A box that declares itself while the desk is hunting is enrolled twice in the window opened for
it. -/
theorem hunting_declaration_enrolled_twice :
    ¬ (windowEnrolls ((masterMachine {}).trace dwellMaster
      (atDefaults [.next, .setBox 16 8 0, .regrant, .next, .next]))).Nodup := by
  decide +kernel

/-! ## The first grant -/

/-- A step that lets the dwell end on the declaration: a window whose box is known reaches its first
slot with the declaration pending, or with a dwell no longer than the settle; a declaration made
before the first grant brings a width that no slot of the window went out with; and one made later
leaves a sweep the clock has not run past. -/
def DwellEnds (t : MasterTunables) (log : List MasterEvent) (e : MasterEvent) : Prop :=
  (t.grantOnDeclare = true → e.input.2 = .next → e.pre.state = .granting → e.pre.hasBox = true →
    e.pre.win.grantTicks = 0 →
    e.pre.win.enrollPending = true ∨ e.pre.geo.grantDwell ≤ e.pre.geo.declareSettleSlots + 1) ∧
  (∀ w ∈ redeclaredWidth e, e.pre.win.grantTicks ≤ e.pre.grantAnchor + 1 →
    ∀ x ∈ windowSlots log, x.1 ≠ w) ∧
  (∀ w ∈ redeclaredWidth e,
    e.pre.win.grantTicks ≤ e.pre.geo.grantDwell + grantSweepLen w.toNat * e.pre.geo.grantStride + 1)

instance (t : MasterTunables) (log : List MasterEvent) (e : MasterEvent) :
    Decidable (DwellEnds t log e) := inferInstanceAs (Decidable (_ ∧ _))

/-- The box was armed at the width in force with slot `l` of the window. -/
def ArmedAt (xs : List (ℤ × Slot)) (width : ℤ) (l : ℕ) : Prop :=
  ∃ s, xs[l]? = some (width, s) ∧ s.emit = .enroll

/-- None of these slots carries a grant. -/
def NoGrant (xs : List (ℤ × Slot)) : Prop := ∀ x ∈ xs, x.2.emit ≠ .grant

/-- Before the first grant the window waits for the settle after the ENROLL of slot `l`: the second
ENROLL of a declaration that was pending when the window opened is still to come, or the dwell ends a
settle after the last ENROLL, or it has just ended. -/
def Settling (g : Geometry) (w : Window) (n l : ℕ) : Prop :=
  (¬ 0 < w.dwellEndedTick → w.enrollPending = true → n ≤ 1) ∧
  (¬ 0 < w.dwellEndedTick → w.enrollPending = false →
    0 < w.enrollSentTick ∧ w.enrollSentTick ≤ l + 1 ∧
        n ≤ w.enrollSentTick + g.declareSettleSlots ∨
      g.grantDwell ≤ g.declareSettleSlots + 1) ∧
  (0 < w.dwellEndedTick → n ≤ l + g.declareSettleSlots + 2)

/-- Where a run stands in its grant window. -/
structure DwellInv (t : MasterTunables) (log : List MasterEvent) (m : Master) : Prop where
  stride : m.geo.grantStride = 12
  dwell : m.geo.DwellOk
  sweep : m.SweepOk
  ticks : m.state = .granting → m.win.grantTicks = (windowSlots log).length
  ended : m.state = .granting → 0 ≤ m.win.dwellEndedTick ∧
    m.win.dwellEndedTick ≤ m.geo.grantDwell ∧
    (0 < m.win.dwellEndedTick → m.win.dwellEndedTick < m.win.grantTicks)
  cap : m.state = .granting → m.hasBox = true →
    m.win.grantTicks ≤ m.geo.grantDwell + 12 * m.grantBurst.length + 1
  waiting : m.state = .granting → m.hasBox = true → NoGrant (windowSlots log) →
    m.win.grantTicks ≤ m.grantAnchor + 1
  settling : t.grantOnDeclare = true → m.state = .granting → m.hasBox = true →
    NoGrant (windowSlots log) → ∀ l, ArmedAt (windowSlots log) m.enrollWidth l →
      Settling m.geo m.win (windowSlots log).length l

theorem declareSettleSlots_pos (g : Geometry) : 1 ≤ g.declareSettleSlots := le_max_left ..

/-- With no grant sent, the next slot is at most a settle and two slots behind the ENROLL. -/
theorem DwellInv.due {log : List MasterEvent} (h : DwellInv t log m) (ht : t.grantOnDeclare = true)
    (hs : m.state = .granting) (hb : m.hasBox = true) (hno : NoGrant (windowSlots log)) {l : ℕ}
    (hl : ArmedAt (windowSlots log) m.enrollWidth l) :
    (windowSlots log).length ≤ l + m.geo.declareSettleSlots + 2 := by
  have hticks := h.ticks hs
  have hwait := h.waiting hs hb hno
  have hpos := declareSettleSlots_pos m.geo
  obtain ⟨h₁, h₂, h₃⟩ := h.settling ht hs hb hno l hl
  by_cases hended : 0 < m.win.dwellEndedTick
  · exact h₃ hended
  · have hanchor : m.grantAnchor = m.geo.grantDwell := by
      unfold Master.grantAnchor
      rw [if_neg hended]
    cases hp : m.win.enrollPending with
    | true =>
      have := h₁ hended hp
      omega
    | false =>
      have := h₂ hended hp
      omega

theorem noGrant_concat {xs : List (ℤ × Slot)} {x : ℤ × Slot} :
    NoGrant (xs ++ [x]) ↔ NoGrant xs ∧ x.2.emit ≠ .grant := by
  unfold NoGrant
  simp only [List.mem_append, List.mem_singleton]
  constructor
  · intro h
    exact ⟨fun y hy => h y (.inl hy), h x (.inr rfl)⟩
  · rintro ⟨hxs, hx⟩ y (hy | rfl)
    · exact hxs y hy
    · exact hx

theorem armedAt_concat {xs : List (ℤ × Slot)} {x : ℤ × Slot} {width : ℤ} {l : ℕ}
    (h : ArmedAt (xs ++ [x]) width l) :
    ArmedAt xs width l ∨ l = xs.length ∧ x.2.emit = .enroll := by
  obtain ⟨s, hat, hs⟩ := h
  have hlt := (List.getElem?_eq_some_iff.mp hat).1
  rw [List.length_append, List.length_singleton] at hlt
  by_cases hl : l < xs.length
  · rw [List.getElem?_append_left hl] at hat
    exact .inl ⟨s, hat, hs⟩
  · obtain rfl : l = xs.length := by omega
    rw [List.getElem?_concat_length] at hat
    obtain rfl := Option.some.inj hat
    exact .inr ⟨rfl, hs⟩

/-- The first slot after the dwell carries the first row of the sweep. -/
theorem DwellInv.grant_due {log : List MasterEvent} (h : DwellInv t log m) (hs : m.state = .granting)
    (hb : m.hasBox = true) {c : Cadence} {w : Window} {s : Slot} (hw : declaredSlot t m = (c, w, s))
    (hover : 0 < m.win.dwellEndedTick ∨ m.geo.grantDwell < m.win.grantTicks)
    (hat : m.win.grantTicks ≤ m.grantAnchor + 1) : s.emit = .grant := by
  have hticks := h.ticks hs
  obtain ⟨hended, -, hlt⟩ := h.ended hs
  obtain ⟨-, hlatch, hidx⟩ := declaredSlot_spec h.stride h.dwell (by omega) hended hlt hw
  have hsame : w.dwellEndedTick = m.win.dwellEndedTick := by
    rcases hlatch with hsame | ⟨hzero, -, hcap, -⟩
    · exact hsame
    · omega
  have hanchor : Master.grantAnchor { m with win := w } = m.grantAnchor := by
    simp only [Master.grantAnchor, hsame]
  have hfirst : m.win.grantTicks - 1 - m.grantAnchor = 0 := by
    unfold Master.grantAnchor at hat ⊢
    split_ifs at hat ⊢ <;> omega
  have hlen := (h.sweep.1 hb).length.1
  rw [hanchor, hfirst, rowDue, if_pos] at hidx
  · unfold Slot.grantIdx at hidx
    split_ifs at hidx with hgrant
    exact hgrant
  · rw [hlen]
    unfold grantSweepLen
    omega

/-- What a slot of the window leaves: the clock, the latch and the waiting for the first grant. -/
theorem DwellInv.slot_settles {log : List MasterEvent} (h : DwellInv t log m)
    (hs : m.state = .granting) (hb : m.hasBox = true)
    (hfirst : t.grantOnDeclare = true → m.win.grantTicks = 0 →
      m.win.enrollPending = true ∨ m.geo.grantDwell ≤ m.geo.declareSettleSlots + 1)
    {c : Cadence} {w : Window} {s : Slot} (hw : declaredSlot t m = (c, w, s)) :
    w.grantTicks = m.win.grantTicks ∧
    (0 ≤ w.dwellEndedTick ∧ w.dwellEndedTick ≤ m.geo.grantDwell ∧
      (0 < w.dwellEndedTick → w.dwellEndedTick < m.win.grantTicks + 1)) ∧
    (NoGrant (windowSlots log ++ [(m.enrollWidth, s)]) →
      m.win.grantTicks + 1 ≤ Master.grantAnchor { m with win := w.tick } + 1 ∧
      (t.grantOnDeclare = true → ∀ l, ArmedAt (windowSlots log ++ [(m.enrollWidth, s)]) m.enrollWidth l →
        Settling m.geo w.tick ((windowSlots log).length + 1) l)) := by
  have hticks := h.ticks hs
  have hdwell := h.dwell
  have hpos := declareSettleSlots_pos m.geo
  obtain ⟨hended, hcap, hlt⟩ := h.ended hs
  have hdue := h.grant_due hs hb hw
  have hslot := declaredSlot_dwell t m
  rw [hw] at hslot
  dsimp only at hslot
  cases hslot with
  | arm hzero =>
    refine ⟨rfl, ⟨hended, hcap, fun hpos => by have := hlt hpos; omega⟩, fun _ => ⟨?_, ?_⟩⟩
    · have hanchor : Master.grantAnchor { m with win := m.win.tick } = m.geo.grantDwell :=
        if_neg fun hpos => by have := hlt hpos; omega
      rw [hanchor]
      omega
    · intro ht l _
      refine ⟨fun _ _ => by omega, fun _ hp => ?_, fun hover => ?_⟩
      · rcases hfirst ht hzero with hpending | hshort
        · exact absurd (hpending.symm.trans hp) (by decide)
        · exact .inr hshort
      · have := hlt hover
        omega
  | rearm hzero hcap' hno hpending =>
    refine ⟨rfl, ⟨hended, hcap, fun hpos => absurd hpos hno⟩, fun hgrant => ⟨?_, ?_⟩⟩
    · have hanchor : Master.grantAnchor { m with win := Window.tick { m.win with
          enrollPending := false, enrollSentTick := m.win.grantTicks } } = m.geo.grantDwell := if_neg hno
      rw [hanchor]
      omega
    · intro ht l harmed
      refine ⟨fun _ hp => absurd (show false = true from hp) (by decide), fun _ _ => .inl ?_,
        fun hover => absurd hover hno⟩
      dsimp only [Window.tick]
      rcases armedAt_concat harmed with hold | ⟨rfl, -⟩
      · have := (h.settling ht hs hb (noGrant_concat.mp hgrant).1 l hold).1 hno hpending
        omega
      · omega
  | hold hzero hcap' hno harmed hpending hne =>
    refine ⟨rfl, ⟨hended, hcap, fun hpos => absurd hpos hno⟩, fun hgrant => ⟨?_, ?_⟩⟩
    · have hanchor : Master.grantAnchor { m with win := m.win.tick } = m.geo.grantDwell := if_neg hno
      rw [hanchor]
      omega
    · intro ht l hl
      refine ⟨fun _ hp => absurd (hp.symm.trans hpending) (by decide), fun _ _ => ?_,
        fun hover => absurd hover hno⟩
      rcases armedAt_concat hl with hold | ⟨-, henroll⟩
      · rcases (h.settling ht hs hb (noGrant_concat.mp hgrant).1 l hold).2.1 hno hpending
          with ⟨hsent, hle, -⟩ | hshort
        · have hnot := of_decide_eq_false harmed
          have hearly : ¬ m.win.enrollSentTick + m.geo.declareSettleSlots ≤ m.win.grantTicks :=
            fun hlate => hnot ⟨ht, hpending, hsent, (wrapInt_le (by omega)).trans hlate⟩
          refine .inl ⟨hsent, hle, ?_⟩
          dsimp only [Window.tick]
          omega
        · exact .inr hshort
      · exact absurd henroll hne
  | latch hzero hcap' hno harmed hne =>
    obtain ⟨ht, hpending, -, -⟩ := of_decide_eq_true harmed
    have hon : 0 < m.win.grantTicks := by omega
    refine ⟨rfl, ⟨by dsimp only; omega, by dsimp only; omega, fun _ => by dsimp only; omega⟩,
      fun hgrant => ⟨?_, ?_⟩⟩
    · have hanchor : Master.grantAnchor { m with win := Window.tick { m.win with
          dwellEndedTick := m.win.grantTicks } } = m.win.grantTicks := if_pos hon
      rw [hanchor]
    · intro _ l hl
      refine ⟨fun hoff => absurd hon hoff, fun hoff => absurd hon hoff, fun _ => ?_⟩
      rcases armedAt_concat hl with hold | ⟨-, henroll⟩
      · rcases (h.settling ht hs hb (noGrant_concat.mp hgrant).1 l hold).2.1 hno hpending
          with ⟨-, hle, hn⟩ | hshort
        · omega
        · omega
      · exact absurd henroll hne
  | burst hzero hover hne =>
    refine ⟨rfl, ⟨hended, hcap, fun hpos => by have := hlt hpos; omega⟩, fun hgrant => ?_⟩
    obtain ⟨hbefore, hnow⟩ := noGrant_concat.mp hgrant
    exact absurd (hdue hover (h.waiting hs hb hbefore)) hnow

/-- A call without a slot does not change what the window has sent. -/
theorem windowSlots_silent {log : List MasterEvent} {e : MasterEvent}
    (hticks : e.pre.win.grantTicks = (windowSlots log).length) (hout : e.out = none)
    (hsame : e.post.win.grantTicks = e.pre.win.grantTicks) :
    windowSlots (log ++ [e]) = windowSlots log := by
  by_cases ho : opensWindow e = true
  · have hopen := (of_decide_eq_true ho).2
    have hempty : windowSlots log = [] := List.eq_nil_of_length_eq_zero (by omega)
    rw [windowSlots_opened ho, hempty]
  · rw [windowSlots_running (Bool.of_not_eq_true ho), hout]
    exact List.append_nil _

/-- A window that has just been opened is waiting. -/
theorem DwellInv.opened {log : List MasterEvent} {e : MasterEvent} (hstride : e.post.geo.grantStride = 12)
    (hdwell : e.post.geo.DwellOk) (hsweep : e.post.SweepOk) (hs : e.post.state = .granting)
    (hf : e.post.Fresh) : DwellInv t (log ++ [e]) e.post := by
  have hempty : windowSlots (log ++ [e]) = [] := windowSlots_opened (decide_eq_true ⟨hs, hf.1⟩)
  obtain ⟨hzero, hended⟩ := hf
  refine ⟨hstride, hdwell, hsweep, fun _ => ?_, fun _ => ⟨by omega, by omega, by omega⟩,
    fun _ _ => by omega, fun _ _ _ => ?_, fun _ _ _ _ l hl => ?_⟩
  · rw [hempty]
    exact hzero
  · unfold Master.grantAnchor
    rw [if_neg (by omega)]
    omega
  · obtain ⟨s, hat, -⟩ := hl
    rw [hempty] at hat
    cases hat

/-- No window is open. -/
theorem DwellInv.closed {log : List MasterEvent} (hstride : m.geo.grantStride = 12)
    (hdwell : m.geo.DwellOk) (hsweep : m.SweepOk) (hs : m.state ≠ .granting) :
    DwellInv t log m :=
  ⟨hstride, hdwell, hsweep, fun h => absurd h hs, fun h => absurd h hs, fun h => absurd h hs,
    fun h => absurd h hs, fun _ h => absurd h hs⟩

/-- What no call touches. -/
theorem DwellInv.still {log : List MasterEvent} {m' : Master} (h : DwellInv t log m)
    (hcont : Continues m m') : m'.geo.grantStride = 12 ∧ m'.geo.DwellOk ∧ m'.SweepOk := by
  rw [hcont.geo]
  exact ⟨h.stride, h.dwell, hcont.sweep h.sweep⟩

/-- The window is not touched. -/
theorem DwellInv.kept {log : List MasterEvent} {e : MasterEvent} (h : DwellInv t log e.pre)
    (hcont : Continues e.pre e.post) (hs : e.pre.state = .granting) (hw : e.post.win = e.pre.win)
    (ha : e.post.alloc = e.pre.alloc) (hout : e.out = none) : DwellInv t (log ++ [e]) e.post := by
  obtain ⟨hstride, hdwell, hsweep⟩ := h.still hcont
  have hgeo := hcont.geo
  have hslots := windowSlots_silent (h.ticks hs) hout (by rw [hw])
  have hanchor : e.post.grantAnchor = e.pre.grantAnchor := by
    unfold Master.grantAnchor
    rw [hw, hgeo]
  refine ⟨hstride, hdwell, hsweep, fun _ => ?_, fun _ => ?_, fun _ hb => ?_, fun _ hb hno => ?_,
    fun ht _ hb hno l hl => ?_⟩
  · rw [hslots, hw]
    exact h.ticks hs
  · rw [hw, hgeo]
    exact h.ended hs
  · have hb₀ : e.pre.hasBox = true := by rw [← hasBox_congr ha]; exact hb
    have hcap := h.cap hs hb₀
    rw [(h.sweep.1 hb₀).length.1] at hcap
    rw [(hsweep.1 hb).length.1, hw, hgeo, ha]
    exact hcap
  · rw [hasBox_congr ha] at hb
    rw [hslots] at hno
    rw [hw, hanchor]
    exact h.waiting hs hb hno
  · rw [hasBox_congr ha] at hb
    rw [hslots] at hno hl ⊢
    rw [enrollWidth_congr ha] at hl
    rw [hw, hgeo]
    exact h.settling ht hs hb hno l hl

/-- The box declares itself anew: at a width that is new to the window until the first grant is out, and
behind a clock its sweep has room for. -/
theorem DwellInv.redeclared {log : List MasterEvent} {e : MasterEvent} (h : DwellInv t log e.pre)
    (hcont : Continues e.pre e.post) (hs : e.pre.state = .granting) (hb : e.pre.hasBox = true)
    {inCh base : ℤ} {a : GrantAlloc} (ha : grantAllocate base inCh = some a) {rows : List Template}
    (hm' : e.post = e.pre.declared a rows) (hout : e.out = none)
    (hanew : e.pre.win.grantTicks ≤ e.pre.grantAnchor + 1 → ∀ x ∈ windowSlots log, x.1 ≠ inCh)
    (hroom : e.pre.win.grantTicks ≤
      e.pre.geo.grantDwell + grantSweepLen inCh.toNat * e.pre.geo.grantStride + 1) :
    DwellInv t (log ++ [e]) e.post := by
  obtain ⟨hstride, hdwell, hsweep⟩ := h.still hcont
  have hgeo := hcont.geo
  have hwin : e.post.win = { e.pre.win with enrollPending := true } := by rw [hm', declared_win hb]
  have hslots := windowSlots_silent (h.ticks hs) hout (by rw [hwin])
  have hanchor : e.post.grantAnchor = e.pre.grantAnchor := by
    unfold Master.grantAnchor
    rw [hwin, hgeo]
  refine ⟨hstride, hdwell, hsweep, fun _ => ?_, fun _ => ?_, fun _ hb' => ?_, fun _ _ hno => ?_,
    fun ht _ _ hno l hl => ?_⟩
  · rw [hslots, hwin]
    exact h.ticks hs
  · rw [hwin, hgeo]
    exact h.ended hs
  · have halloc : e.post.alloc.width = inCh.toNat := by
      obtain ⟨-, hw, -⟩ := grantAllocate_eq_some ha
      rw [hm']
      show a.width = _
      omega
    rw [h.stride] at hroom
    rw [(hsweep.1 hb').length.1, hwin, hgeo, halloc]
    dsimp only
    omega
  · rw [hslots] at hno
    rw [hwin, hanchor]
    exact h.waiting hs hb hno
  · rw [hslots] at hno hl
    obtain ⟨s, hat, -⟩ := hl
    rw [hm', declared_enrollWidth ha] at hat
    exact absurd rfl (hanew (h.waiting hs hb hno) _ (List.mem_of_getElem? hat))

/-- A slot of a window whose box is known. -/
theorem DwellInv.slot {log : List MasterEvent} {e : MasterEvent} (h : DwellInv t log e.pre)
    (hcont : Continues e.pre e.post) (hs : e.pre.state = .granting) (hb : e.pre.hasBox = true)
    (hfirst : t.grantOnDeclare = true → e.pre.win.grantTicks = 0 →
      e.pre.win.enrollPending = true ∨ e.pre.geo.grantDwell ≤ e.pre.geo.declareSettleSlots + 1)
    {c : Cadence} {w : Window} {s : Slot} (hw : declaredSlot t e.pre = (c, w, s))
    (hout : e.out = some s) (hwin : e.post.win = w.tick) (ha : e.post.alloc = e.pre.alloc)
    (hend : e.post.state = .granting ∧ e.post.grantDelivered = false ∨ e.post.state = .established) :
    DwellInv t (log ++ [e]) e.post := by
  obtain ⟨hstride, hdwell, hsweep⟩ := h.still hcont
  have hgeo := hcont.geo
  have hticks := h.ticks hs
  rcases hend with ⟨-, hnot⟩ | hestablished
  swap
  · exact .closed hstride hdwell hsweep (by rw [hestablished]; decide)
  obtain ⟨htick, hended, hsettle⟩ := h.slot_settles hs hb hfirst hw
  have htick' : e.post.win.grantTicks = e.pre.win.grantTicks + 1 := by
    rw [hwin, Window.tick, htick]
  have hopen : opensWindow e = false := opensWindow_of_tick hwin (by omega)
  have hslots : windowSlots (log ++ [e]) = windowSlots log ++ [(e.pre.enrollWidth, s)] := by
    rw [windowSlots_running hopen, hout]
    rfl
  have hanchor : e.post.grantAnchor = Master.grantAnchor { e.pre with win := w.tick } := by
    unfold Master.grantAnchor
    rw [hwin, hgeo]
  have hle : e.post.win.dwellEndedTick ≤ e.post.geo.grantDwell := by
    rw [hwin, hgeo]
    exact hended.2.1
  refine ⟨hstride, hdwell, hsweep, fun _ => ?_, fun _ => ?_, fun _ hb' => ?_, fun _ _ hno => ?_,
    fun ht _ _ hno l hl => ?_⟩
  · rw [hslots, htick', hticks]
    simp
  · rw [htick', hwin, hgeo]
    exact hended
  · have hrun := (grantDelivered_eq_false_iff hstride hdwell hle hsweep.length_le hb').mp hnot
    have := (grantAnchor_bounds hdwell hle).2
    omega
  · rw [hslots] at hno
    rw [htick', hanchor]
    exact (hsettle hno).1
  · rw [hslots] at hno hl ⊢
    rw [enrollWidth_congr ha] at hl
    rw [hwin, hgeo, List.length_append]
    exact (hsettle hno).2 ht l hl

/-- A slot of a window that waits for its box. -/
theorem DwellInv.wait {log : List MasterEvent} {e : MasterEvent} (h : DwellInv t log e.pre)
    (hcont : Continues e.pre e.post) (hs : e.pre.state = .granting) (hb : e.pre.hasBox = false)
    {s : Slot} (hout : e.out = some s) (hwin : e.post.win = e.pre.win.tick)
    (ha : e.post.alloc = e.pre.alloc) : DwellInv t (log ++ [e]) e.post := by
  obtain ⟨hstride, hdwell, hsweep⟩ := h.still hcont
  have hticks := h.ticks hs
  have hended := h.ended hs
  have hopen : opensWindow e = false := opensWindow_of_tick hwin (by omega)
  have hb' : e.post.hasBox = false := (hasBox_congr ha).trans hb
  have hno : ∀ {P : Prop}, e.post.hasBox = true → P := fun hyes =>
    absurd (hyes.symm.trans hb') (by decide)
  refine ⟨hstride, hdwell, hsweep, fun _ => ?_, fun _ => ?_, fun _ => hno, fun _ => hno,
    fun _ _ => hno⟩
  · rw [windowSlots_running hopen, hout, hwin]
    simp only [Window.tick, hticks, Option.map_some, Option.toList_some, List.length_append,
      List.length_singleton]
    push_cast
    omega
  · rw [hwin, hcont.geo]
    refine ⟨hended.1, hended.2.1, fun hpos => ?_⟩
    have := hended.2.2 hpos
    simp only [Window.tick]
    omega

/-- One call lets the dwell end on the declaration. -/
theorem DwellInv.step {log : List MasterEvent} (h : DwellInv t log m) (i : HeadampTx × MasterInput)
    (hL : DwellEnds t log ((masterMachine t).event m i)) :
    DwellInv t (log ++ [(masterMachine t).event m i]) (masterStep t m i).1 := by
  obtain ⟨hfirst, hanew, hroom⟩ := hL
  have hstep : WindowStep t ((masterMachine t).event m i).pre ((masterMachine t).event m i).input.2
      ((masterMachine t).event m i).post ((masterMachine t).event m i).out := masterStep_window t m i
  have hcont : Continues ((masterMachine t).event m i).pre ((masterMachine t).event m i).post :=
    Continues.step t m i
  change DwellInv t log ((masterMachine t).event m i).pre at h
  change DwellInv t _ ((masterMachine t).event m i).post
  generalize (masterMachine t).event m i = e at *
  obtain ⟨hstride, hdwell, hsweep⟩ := h.still hcont
  cases hstep with
  | outside _ hs' => exact .closed hstride hdwell hsweep hs'
  | opened hs' hf => exact .opened hstride hdwell hsweep hs' hf
  | left _ hs' => exact .closed hstride hdwell hsweep (by rw [hs']; decide)
  | accepted _ _ hs' => exact .closed hstride hdwell hsweep (by rw [hs']; decide)
  | kept hs _ hw ha hout => exact h.kept hcont hs hw ha hout
  | redeclared hs hb hi ha hm' hout =>
    have hwidth := redeclaredWidth_eq hi hs hb ha
    exact h.redeclared hcont hs hb ha hm' hout (hanew _ hwidth) (hroom _ hwidth)
  | slot hs hb hi hw hout hwin ha _ hend =>
    exact h.slot hcont hs hb (fun ht hzero => hfirst ht hi hs hb hzero) hw hout hwin ha hend
  | wait hs hb hout _ hwin ha => exact h.wait hcont hs hb hout hwin ha
  | unknown _ _ _ _ hs' => exact .closed hstride hdwell hsweep (by rw [hs']; decide)

theorem dwellInv_init (t : MasterTunables) (placeholder : SceneBody) (src : Mac)
    (cfg : Option ConsoleCfg) {fps : ℤ} (hfits : DwellFits t (initFps fps)) :
    DwellInv t [] (masterInit t placeholder src cfg fps) := by
  have hsweep := sweepOk_init t placeholder src cfg fps
  obtain ⟨blk, desc, heq⟩ := masterInit_eq t placeholder src cfg fps
  rw [heq] at hsweep ⊢
  exact .closed rfl hfits.geometry hsweep nofun

/-- What a slot to a box of known width carries. -/
theorem masterNext_declared (tx : HeadampTx) (hs : m.state = .granting) (hb : m.hasBox = true) :
    ∃ c w, declaredSlot t m = (c, w, (masterNext t tx m).2) := by
  have hmove := masterNext_move t tx m
  generalize masterNext t tx m = r at hmove ⊢
  obtain ⟨m', s⟩ := r
  dsimp only at hmove ⊢
  have hidle : m.state ≠ .idle := by
    rw [hs]
    decide
  cases hmove with
  | hunt h₀ hs₀ | locked h₀ hs₀ | lost h₀ hs₀ =>
    obtain ⟨seen, tick, rfl⟩ := h₀.of_ne_idle hidle
    exact absurd (hs.symm.trans hs₀) (by decide)
  | grant h₀ _ _ hw | delivered h₀ _ _ hw =>
    obtain ⟨seen, tick, rfl⟩ := h₀.of_ne_idle hidle
    exact ⟨_, _, hw⟩
  | wait h₀ _ hb₀ | boxUnknown h₀ _ hb₀ =>
    obtain ⟨seen, tick, rfl⟩ := h₀.of_ne_idle hidle
    exact absurd (hb.symm.trans hb₀) (by decide)

/-- At the last slot the first grant may wait for, the dwell is over. -/
theorem DwellInv.over_of_due {log : List MasterEvent} (h : DwellInv t log m)
    (ht : t.grantOnDeclare = true) (hs : m.state = .granting) (hb : m.hasBox = true)
    (hno : NoGrant (windowSlots log)) {l : ℕ} (hl : ArmedAt (windowSlots log) m.enrollWidth l)
    (hlast : ((windowSlots log).length : ℤ) = l + m.geo.declareSettleSlots + 2) :
    0 < m.win.dwellEndedTick ∨ m.geo.grantDwell < m.win.grantTicks := by
  have hticks := h.ticks hs
  have hpos := declareSettleSlots_pos m.geo
  obtain ⟨h₁, h₂, -⟩ := h.settling ht hs hb hno l hl
  by_cases hended : 0 < m.win.dwellEndedTick
  · exact .inl hended
  · cases hp : m.win.enrollPending with
    | true =>
      have := h₁ hended hp
      omega
    | false =>
      have := h₂ hended hp
      omega

/-- How long a window takes to establish the link. -/
theorem DwellInv.established {log : List MasterEvent} {e : MasterEvent} (h : DwellInv t log e.pre)
    (hstep : WindowStep t e.pre e.input.2 e.post e.out) (hs : e.pre.state = .granting)
    (hpost : e.post.state = .established) :
    (windowSlots (log ++ [e])).length ≤
      e.pre.geo.grantDwell + e.post.grantBurst.length * e.pre.geo.grantStride + 2 := by
  have hopen : opensWindow e = false := opensWindow_of_state (by rw [hpost]; decide)
  have hticks := h.ticks hs
  rw [windowSlots_running hopen, h.stride]
  cases hstep with
  | outside hne => exact absurd hs hne
  | opened hs' => exact absurd (hs'.symm.trans hpost) (by decide)
  | left _ hs' | kept _ hs' | wait _ _ _ _ _ _ hs' | unknown _ _ _ _ hs' =>
    exact absurd (hs'.symm.trans hpost) (by decide)
  | accepted _ hb _ hburst hout =>
    have hcap := h.cap hs hb
    rw [hout, hburst]
    simp only [Option.map_none, Option.toList_none, List.append_nil]
    omega
  | redeclared _ _ _ _ hm' =>
    rw [hm', show (Master.declared _ _ _).state = _ from hs] at hpost
    cases hpost
  | slot _ hb _ _ hout _ _ hburst =>
    have hcap := h.cap hs hb
    rw [hout, hburst]
    simp only [Option.map_some, Option.toList_some, List.length_append, List.length_singleton]
    push_cast
    omega

/-- Where the dwell fits an `int`, in a run whose steps let it end on the declaration, the first grant
of a window leaves at most a settle and two slots after the ENROLL at the width in force, and the window
is over within its dwell and its sweep. -/
theorem dwell_ends_on_declaration (t : MasterTunables) (placeholder : SceneBody) (src : Mac)
    (cfg : Option ConsoleCfg) (fps : ℤ) (hfits : DwellFits t (initFps fps))
    (is : List (HeadampTx × MasterInput))
    (hL : ∀ log e, (masterMachine t).StepOf (masterInit t placeholder src cfg fps) is log e →
      DwellEnds t log e)
    (log : List MasterEvent) (e : MasterEvent)
    (hstep : (masterMachine t).StepOf (masterInit t placeholder src cfg fps) is log e)
    (hs : e.pre.state = .granting) :
    (t.grantOnDeclare = true → e.input.2 = .next → e.pre.hasBox = true → NoGrant (windowSlots log) →
      ∀ l, ArmedAt (windowSlots log) e.pre.enrollWidth l →
        (windowSlots log).length ≤ l + e.pre.geo.declareSettleSlots + 2 ∧
        ((windowSlots log).length = l + e.pre.geo.declareSettleSlots + 2 →
          ∃ s, e.out = some s ∧ s.emit = .grant)) ∧
    (e.post.state = .established → (windowSlots (log ++ [e])).length ≤
      e.pre.geo.grantDwell + e.post.grantBurst.length * e.pre.geo.grantStride + 2) := by
  obtain ⟨inv, heq⟩ := (masterMachine t).trace_invariant_at (H := DwellInv t)
    (dwellInv_init t placeholder src cfg hfits) (fun _ _ i h hl => h.step i hl) hL hstep
  have hwindow : WindowStep t e.pre e.input.2 e.post e.out := by
    rw [heq]
    exact masterStep_window t e.pre e.input
  refine ⟨fun ht hi hb hno l hl => ⟨inv.due ht hs hb hno hl, fun hlast => ?_⟩,
    fun hpost => inv.established hwindow hs hpost⟩
  have hover := inv.over_of_due ht hs hb hno hl hlast
  have hout : e.out = some (masterNext t e.input.1 e.pre).2 := by
    have hin : e.input = (e.input.1, .next) := Prod.ext rfl hi
    rw [heq]
    show (masterStep t e.pre e.input).2 = _
    rw [hin]
    rfl
  obtain ⟨c, w, hw⟩ := masterNext_declared (t := t) e.input.1 hs hb
  exact ⟨_, hout, inv.grant_due hs hb hw hover (inv.waiting hs hb hno)⟩

/-- A desk at 100 slots a second. -/
def slowMaster : Master := masterInit {} (Vector.replicate 8904 0) (Vector.replicate 6 1) none 100

instance (xs : List (ℤ × Slot)) : Decidable (NoGrant xs) :=
  inferInstanceAs (Decidable (∀ x ∈ xs, x.2.emit ≠ .grant))

/-- A box that was known before its window opened gets its first row in the eighth slot. -/
theorem dwell_ends_on_declaration_slow :
    ∃ s, ((masterMachine {}).event ((masterMachine {}).run slowMaster
      (atDefaults (.setBox 16 8 0 :: .regrant :: List.replicate 7 .next)))
      (headampTxInit, .next)).out = some s ∧ s.emit = .grant := by
  have hL : ∀ log e, (masterMachine {}).StepOf slowMaster
      (atDefaults (.setBox 16 8 0 :: .regrant :: List.replicate 7 .next) ++ [(headampTxInit, .next)])
      log e → DwellEnds {} log e := by
    apply Reactive.Machine.forall_stepOf
    decide +kernel
  refine (((dwell_ends_on_declaration {} (Vector.replicate 8904 0) (Vector.replicate 6 1) none 100 (by decide) _ hL
    _ _ ((masterMachine {}).stepOf_last _ _ _) (by decide +kernel)).1 rfl rfl (by decide +kernel)
    (by decide +kernel) 0 ?_).2 (by decide +kernel))
  exact ⟨.plain .enroll, by decide +kernel, rfl⟩

/-- A box that declares itself in a window held open for it waits for the whole dwell: more than a
settle and two slots after the ENROLL at its width there is no grant yet. -/
theorem held_declaration_waits :
    let is := atDefaults ([.regrant, .next, .setBox 16 8 0] ++ List.replicate 203 .next)
    let m := (masterMachine {}).run dwellMaster is
    let slots := windowSlots ((masterMachine {}).trace dwellMaster is)
    m.state = .granting ∧ NoGrant slots ∧ slots[0]? = some (m.enrollWidth, .plain .enroll) ∧
      0 + m.geo.declareSettleSlots + 2 < slots.length := by
  decide +kernel

end Libreac
