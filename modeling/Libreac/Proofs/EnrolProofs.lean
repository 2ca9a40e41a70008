import Libreac.Proofs.SessionProofs

/-!
# Proofs: what is enrolled is what is addressed

The grant rows of a window carry the channels of the allocation in force, row by row. A declaration
of another width opens a new window, so the rows start over; one of the same width at another base
does not, and is harmless only before the first group-A row has left (`BaseStays`).
-/

namespace Libreac

open Reactive (sinceLast sinceLast_concat)

variable {env : Env} {p : Pacer} {m : Master} {t : MasterTunables} {tx : HeadampTx}
  {chs : List (Option ℕ)}

/-! ## The rows on the wire -/

/-- The step leaves a grant window that has not run a slot yet. -/
def opensGrant (e : PacerEvent) : Bool :=
  e.post.master.state = .granting ∧ e.post.master.win.grantTicks = 0

/-- The head-amp channel a grant row addresses, if the slot carries a grant row; the rows that are
not of group A address none. -/
def Sent.grantRow (s : Sent) : Option (Option ℕ) :=
  if s.slot.emit = .grant then some (s.ctrl.bind groupaChannel) else none

/-- The grant rows sent since the last window was opened. A master that is ESTABLISHED has completed
that window. -/
def enrolledRows (log : List PacerEvent) : List (Option ℕ) :=
  (sinceLast opensGrant log).filterMap fun e => e.out.sent.bind Sent.grantRow

theorem enrolledRows_concat (log : List PacerEvent) (e : PacerEvent) :
    enrolledRows (log ++ [e])
      = if opensGrant e then [] else enrolledRows log ++ (e.out.sent.bind Sent.grantRow).toList := by
  unfold enrolledRows
  rw [sinceLast_concat]
  split_ifs
  · rfl
  · simp only [List.filterMap_append, List.filterMap_cons, List.filterMap_nil]
    cases e.out.sent.bind Sent.grantRow <;> rfl

theorem groupaChannel_stampBlockCksum (row : Template) :
    groupaChannel (stampBlockCksum row) = groupaChannel row := by
  unfold groupaChannel
  rw [byte_stampBlockCksum _ (by omega), byte_stampBlockCksum _ (by omega),
    byte_stampBlockCksum _ (by omega), byte_stampBlockCksum _ (by omega),
    byte_stampBlockCksum _ (by omega)]

/-! ## The master -/

/-- The number of grant rows the window has carried. -/
def Master.rowsSent (m : Master) : ℕ := ((m.win.grantTicks - m.grantAnchor + 10) / 12).toNat

/-- The rows `chs` sent so far belong to the allocation in force. Nothing is asked of a window that
has not run a slot. -/
structure Enrolled (chs : List (Option ℕ)) (m : Master) : Prop where
  room : m.WindowRoom
  granting : m.state = .granting → m.hasBox = true →
    WindowOk m ((List.range m.rowsSent).map Int.ofNat) ∧
      (m.win.grantTicks ≠ 0 → chs = (sweepChannels m.alloc).take m.rowsSent)
  established : m.state = .established → m.hasBox = true ∧ chs = sweepChannels m.alloc

theorem WindowOk.rowsSent {sent : List ℤ} (ok : WindowOk m sent) :
    sent = (List.range m.rowsSent).map Int.ofNat := ok.sent_eq

theorem Enrolled.of_fresh (room : m.WindowRoom) (hs : m.state = .granting) (hfresh : m.Fresh) :
    Enrolled chs m := by
  refine ⟨room, fun _ _ => ⟨?_, fun h => absurd hfresh.1 h⟩, fun he => ?_⟩
  · have ok := WindowOk.fresh hfresh room.dwell
    rwa [← ok.rowsSent]
  · rw [hs] at he
    cases he

theorem Enrolled.of_idle (room : m.WindowRoom) (hg : m.state ≠ .granting)
    (he : m.state ≠ .established) : Enrolled chs m :=
  ⟨room, fun h => absurd h hg, fun h => absurd h he⟩

theorem Enrolled.of_probing (room : m.WindowRoom) (hs : m.state = .probing) : Enrolled chs m :=
  .of_idle room (by rw [hs]; decide) (by rw [hs]; decide)

/-- The same box in the same window. -/
theorem Enrolled.congr {m' : Master} (h : Enrolled chs m) (hstate : m'.state = m.state)
    (hgeo : m'.geo = m.geo) (hticks : m'.win.grantTicks = m.win.grantTicks)
    (hended : m'.win.dwellEndedTick = m.win.dwellEndedTick) (halloc : m'.alloc = m.alloc)
    (hsweep : m'.SweepOk) : Enrolled chs m' := by
  have room : m'.WindowRoom := ⟨hgeo ▸ h.room.stride, hgeo ▸ h.room.dwell, hsweep⟩
  have hbox : m'.hasBox = m.hasBox := by rw [Master.hasBox, halloc]; rfl
  have hrows : m'.rowsSent = m.rowsSent := by
    simp only [Master.rowsSent, Master.grantAnchor, hticks, hended, hgeo]
  refine ⟨room, fun hs hb => ?_, fun hs => ?_⟩
  · have hb' : m.hasBox = true := hbox.symm.trans hb
    obtain ⟨ok, hchs⟩ := h.granting (hstate.symm.trans hs) hb'
    refine ⟨?_, ?_⟩
    · rw [hrows]
      refine ok.congr hticks hended hgeo ?_
      rw [(hsweep.1 hb).length.1, (h.room.sweep.1 hb').length.1, halloc]
    · rw [hticks, halloc, hrows]
      exact hchs
  · obtain ⟨hb, hchs⟩ := h.established (hstate.symm.trans hs)
    exact ⟨hbox.trans hb, by rw [halloc]; exact hchs⟩

theorem RxMove.enrolled {m' : Master} {ev : RxEvent} {src : Mac} {blk : Option Block} {r : Bool}
    (h : RxMove tx m ev src blk m' r) (inv : Enrolled chs m) : Enrolled chs m' := by
  have room := (Continues.rxMove h).room inv.room
  cases h with
  | refused => exact inv
  | stay _ h₁ =>
    rcases h₁.cases with ⟨-, hs⟩ | ⟨-, seen, lc, rfl⟩
    · exact .of_probing room hs
    · exact inv.congr rfl rfl rfl rfl rfl room.sweep
  | held _ hs => exact .of_probing room hs
  | latch | relatch => exact .of_fresh room (enterGranting_state ..) (enterGranting_fresh ..)
  | accept _ h₁ hs hd =>
    exfalso
    obtain ⟨seen, lc, rfl⟩ := h₁.of_ne_probing (by rw [hs]; decide)
    have hb : m.hasBox = true := by
      simp only [Master.grantDelivered, decide_eq_true_eq] at hd
      exact hd.1
    have ok := (inv.granting hs hb).1
    have hrun := (grantDelivered_eq_false_iff inv.room.stride inv.room.dwell ok.ended_le
      inv.room.sweep.length_le hb).mpr ok.running
    exact absurd (hd.symm.trans hrun) (by simp)
  | bye => exact .of_probing room (enterProbing_state _)

/-- A box may still be moved to another base: no group-A row of its window has left. -/
def Master.MayRebase (m : Master) : Prop :=
  m.state ≠ .established ∧ (m.state = .granting → m.win.grantTicks ≤ m.grantAnchor + 13)

theorem take_sweepChannels {k : ℕ} (hk : k ≤ 1) (a a' : GrantAlloc) :
    (sweepChannels a).take k = (sweepChannels a').take k := by
  obtain rfl | rfl : k = 0 ∨ k = 1 := by omega
  · rfl
  · rfl

/-- The same width at another base: the window runs on over the new sweep. -/
theorem Enrolled.rebase {a : GrantAlloc} {rows : List Template} (inv : Enrolled chs m)
    (hrows : IsSweep a rows) (hwidth : a.width = m.alloc.width)
    (hbase : a.base ≠ m.alloc.base → m.MayRebase) : Enrolled chs (m.declared a rows) := by
  have room := (Continues.declared m hrows).room inv.room
  have hbox : m.hasBox = true := by
    rw [hasBox_iff, ← hwidth]
    exact hrows.length.2
  have hwin : (m.declared a rows).win = { m.win with enrollPending := true } := by
    simp [Master.declared, hbox]
  by_cases hsame : a.base = m.alloc.base
  · have ha : a = m.alloc := by
      cases a
      cases hm : m.alloc
      rw [hm] at hsame hwidth
      simp_all
    exact inv.congr rfl rfl (by rw [hwin]) (by rw [hwin]) ha room.sweep
  · obtain ⟨hest, hticks⟩ := hbase hsame
    have hrows' : (m.declared a rows).rowsSent = m.rowsSent := by
      simp only [Master.rowsSent, Master.grantAnchor, hwin]
      rfl
    refine ⟨room, fun hs _ => ?_, fun he => absurd he hest⟩
    obtain ⟨ok, hchs⟩ := inv.granting hs hbox
    rw [hrows']
    refine ⟨?_, fun hne => ?_⟩
    · refine ok.congr (by rw [hwin]) (by rw [hwin]) rfl ?_
      show rows.length = _
      rw [hrows.length.1, (inv.room.sweep.1 hbox).length.1, hwidth]
    · -- At most the first row has left, and that is the same for every box.
      have hfew : m.rowsSent ≤ 1 := by
        have hle := hticks hs
        unfold Master.rowsSent
        omega
      rw [hchs (by rw [hwin] at hne; exact hne)]
      exact take_sweepChannels hfew _ _

theorem Enrolled.declare {frame : List UInt8} (inv : Enrolled chs p.master)
    (hbase : ∀ a, p.newAlloc frame = some a → a.width = p.master.alloc.width →
      a.base ≠ p.master.alloc.base → p.master.MayRebase) :
    Enrolled chs (rxDeclare p frame).master := by
  have room := (rxDeclare_path {} p frame).1.continues.room inv.room
  rcases rxDeclare_master p frame with ⟨-, heq⟩ | ⟨a, rows, hnew, hrows, ⟨hw | hs, heq⟩ | ⟨-, heq⟩⟩
  · rw [heq]
    exact inv
  · rw [heq]
    exact inv.rebase hrows hw (hbase a hnew hw)
  · rw [heq] at room ⊢
    exact .of_idle room hs.1 hs.2
  · rw [heq] at room ⊢
    exact .of_fresh room (enterGranting_state ..) (enterGranting_fresh ..)

/-! ## Slots -/

/-- The channel of the grant row the slot carries. -/
def Master.rowOf (m : Master) (s : Slot) : Option (Option ℕ) :=
  if s.emit = .grant then some ((masterStamp m s).bind groupaChannel) else none

theorem rowOf_eq (m : Master) (s : Slot) (h : ∀ i, s.grantIdx = some i → 0 ≤ i) :
    m.rowOf s = s.grantIdx.map fun i => (m.grantBurst[i.toNat]?).bind groupaChannel := by
  unfold Master.rowOf Slot.grantIdx at *
  by_cases hs : s.emit = .grant
  · rw [if_pos hs] at h
    rw [if_pos hs, if_pos hs, Option.map_some, masterStamp, hs]
    dsimp only
    have hpos := h s.idx rfl
    rw [if_neg (by omega)]
    cases m.grantBurst[s.idx.toNat]? with
    | none => rfl
    | some row => exact congrArg some (groupaChannel_stampBlockCksum row)
  · rw [if_neg hs, if_neg hs]
    rfl

/-- The rows sent before and in a slot, when the slot sends the row that is due. -/
theorem rows_append {sent : List ℤ} {k : ℕ} {s : Slot} (hsweep : IsSweep m.alloc m.grantBurst)
    (hchs : chs = (sweepChannels m.alloc).take sent.length)
    (hrows : sent ++ s.grantIdx.toList = (List.range k).map Int.ofNat)
    (hk : k ≤ m.grantBurst.length) :
    chs ++ (m.rowOf s).toList = (sweepChannels m.alloc).take k := by
  have hlen : sent.length + s.grantIdx.toList.length = k := by
    have := congrArg List.length hrows
    simpa using this
  cases hi : s.grantIdx with
  | none =>
    rw [hi] at hlen
    have hpos : ∀ i, s.grantIdx = some i → 0 ≤ i := by
      intro i h
      rw [hi] at h
      cases h
    rw [rowOf_eq m s hpos, hi, hchs]
    simp only [Option.map_none, Option.toList_none, List.append_nil]
    simp only [Option.toList_none, List.length_nil] at hlen
    rw [← hlen, Nat.add_zero]
  | some i =>
    rw [hi] at hlen hrows
    simp only [Option.toList_some, List.length_singleton] at hlen hrows
    have hidx : i = (sent.length : ℕ) := by
      have hget := congrArg (·[sent.length]?) hrows
      simp only [List.getElem?_concat_length, List.getElem?_map] at hget
      rw [List.getElem?_range (by omega)] at hget
      simpa using hget
    have hpos : ∀ j, s.grantIdx = some j → 0 ≤ j := by
      intro j hj
      rw [hi, Option.some.injEq] at hj
      omega
    have hchannel : (sweepChannels m.alloc)[sent.length]?
        = (m.grantBurst[sent.length]?).map groupaChannel := by
      rw [← hsweep.channels, List.getElem?_map]
    rw [rowOf_eq m s hpos, hi, hchs, ← hlen, List.take_add_one, hchannel, hidx]
    simp only [Option.map_some, Option.toList_some, Int.toNat_natCast]
    rw [List.getElem?_eq_getElem (show sent.length < m.grantBurst.length by omega)]
    rfl

theorem Enrolled.ticked {m₀ : Master} (inv : Enrolled chs m) (h₀ : Ticked m m₀)
    (hfirst : m.state = .granting → m.win.grantTicks = 0 → chs = []) :
    Enrolled chs m₀ ∧ (m₀.state = .granting → m₀.win.grantTicks = 0 → chs = []) := by
  have room := (Continues.ticked h₀).room inv.room
  rcases h₀.cases with ⟨-, hs⟩ | ⟨-, seen, tick, rfl⟩
  · refine ⟨.of_probing room hs, fun hg => ?_⟩
    exact absurd (hs.symm.trans hg) (by decide)
  · exact ⟨inv.congr rfl rfl rfl rfl rfl room.sweep, hfirst⟩

/-- The rows sent so far, of a window that has run no slot too. -/
theorem Enrolled.window_rows (inv : Enrolled chs m)
    (hfirst : m.state = .granting → m.win.grantTicks = 0 → chs = []) (hs : m.state = .granting)
    (hb : m.hasBox = true) :
    WindowOk m ((List.range m.rowsSent).map Int.ofNat) ∧
      chs = (sweepChannels m.alloc).take ((List.range m.rowsSent).map Int.ofNat).length := by
  obtain ⟨ok, hchs⟩ := inv.granting hs hb
  rw [List.length_map, List.length_range]
  refine ⟨ok, ?_⟩
  by_cases hzero : m.win.grantTicks = 0
  · have hnone : m.rowsSent = 0 := by
      have hended : m.win.dwellEndedTick = 0 := by
        have h₁ := ok.ended
        have h₂ := ok.ended_lt
        omega
      have hd := inv.room.dwell
      simp only [Master.rowsSent, Master.grantAnchor, hzero, hended]
      omega
    rw [hnone, hfirst hs hzero]
    rfl
  · exact hchs hzero

/-- A slot of a running window carries the row that is due, if one is. -/
theorem Enrolled.granted {c : Cadence} {w : Window} {s : Slot} (inv : Enrolled chs m)
    (hfirst : m.state = .granting → m.win.grantTicks = 0 → chs = []) (hs : m.state = .granting)
    (hb : m.hasBox = true) (hw : declaredSlot t m = (c, w, s))
    (hd : Master.grantDelivered { m with cad := c, win := w.tick } = false) :
    Enrolled (chs ++ (Master.rowOf { m with cad := c, win := w.tick } s).toList)
      { m with cad := c, win := w.tick } := by
  obtain ⟨ok, hchs⟩ := inv.window_rows hfirst hs hb
  have hlen := (inv.room.sweep.1 hb).length
  unfold grantSweepLen at hlen
  have hslot := (ok.slot inv.room.stride inv.room.dwell hb inv.room.sweep.length_le (by omega) hw).2 hd
  have hrows := hslot.rowsSent
  rw [hrows] at hslot
  refine ⟨⟨inv.room.stride, inv.room.dwell, inv.room.sweep⟩, fun _ _ => ⟨hslot, fun _ => ?_⟩, ?_⟩
  · refine rows_append (inv.room.sweep.1 hb) hchs hrows ?_
    have hrun := hslot.running
    unfold Master.rowsSent
    omega
  · intro he
    exact absurd (hs.symm.trans he) (by decide)

/-- The slot that delivers a window carries the last row. -/
theorem Enrolled.delivered {c : Cadence} {w : Window} {s : Slot} (inv : Enrolled chs m)
    (hfirst : m.state = .granting → m.win.grantTicks = 0 → chs = []) (hs : m.state = .granting)
    (hb : m.hasBox = true) (hw : declaredSlot t m = (c, w, s))
    (hd : Master.grantDelivered { m with cad := c, win := w.tick } = true) :
    Enrolled (chs ++ (Master.rowOf (enterEstablished { m with cad := c, win := w.tick }) s).toList)
      (enterEstablished { m with cad := c, win := w.tick }) := by
  obtain ⟨ok, hchs⟩ := inv.window_rows hfirst hs hb
  have hlen := (inv.room.sweep.1 hb).length
  unfold grantSweepLen at hlen
  have hslot := (ok.slot inv.room.stride inv.room.dwell hb inv.room.sweep.length_le (by omega) hw).1 hd
  refine ⟨⟨inv.room.stride, inv.room.dwell, inv.room.sweep⟩, fun hg => ?_, fun _ => ⟨hb, ?_⟩⟩
  · cases hg
  have hrows := rows_append (m := enterEstablished { m with cad := c, win := w.tick })
    (inv.room.sweep.1 hb) hchs hslot (le_refl _)
  have hall : (sweepChannels m.alloc).length = m.grantBurst.length := by
    rw [← (inv.room.sweep.1 hb).channels, List.length_map]
  exact hrows.trans (List.take_of_length_le (by exact hall.le))

/-- A slot of the cadence carries no row. -/
theorem cadence_rowOf {m₀ : Master} {c : Cadence} {s : Slot} (hc : controlCadence t m₀ = (c, s))
    (m : Master) : m.rowOf s = none := by
  have hne := (controlCadence_emit t m₀).1
  rw [hc] at hne
  exact if_neg hne

/-- The transfer accounting of a session's slot keeps the session, or opens a window or a hunt. -/
theorem SceneMove.enrolled {m' : Master} {emit : MasterEmit} (h : SceneMove tx m emit m')
    (inv : Enrolled chs m) : Enrolled chs m' := by
  have room := (Continues.sceneMove h).room inv.room
  cases h with
  | none => exact inv
  | opened | closed | dropped => exact inv.congr rfl rfl rfl rfl rfl room.sweep
  | released => exact .of_fresh room (enterGranting_state ..) (enterGranting_fresh ..)
  | bye => exact .of_probing room (enterProbing_state _)

/-- A slot: the row it carries is one of the allocation, and the window is delivered with its last
row. -/
theorem NextMove.enrolled {m' : Master} {s : Slot} (h : NextMove t tx m m' s) (inv : Enrolled chs m)
    (hfirst : m.state = .granting → m.win.grantTicks = 0 → chs = []) :
    Enrolled (chs ++ (m'.rowOf s).toList) m' := by
  have room := (Continues.nextMove h).room inv.room
  cases h with
  | hunt h₀ hs hc blk desc =>
    rename_i m₀ c
    obtain ⟨inv₀, -⟩ := inv.ticked h₀ hfirst
    rw [cadence_rowOf hc, Option.toList_none, List.append_nil]
    exact (sceneAccount_move tx (m := { m₀ with cad := c, sceneBlk := blk, fillerDesc := desc })
      s.emit (.inl hs)).enrolled (inv₀.congr rfl rfl rfl rfl rfl inv₀.room.sweep)
  | grant h₀ hs hb hw hd =>
    obtain ⟨inv₀, hfirst₀⟩ := inv.ticked h₀ hfirst
    exact inv₀.granted hfirst₀ hs hb hw hd
  | delivered h₀ hs hb hw hd =>
    obtain ⟨inv₀, hfirst₀⟩ := inv.ticked h₀ hfirst
    exact inv₀.delivered hfirst₀ hs hb hw hd
  | wait h₀ hs hb =>
    refine ⟨room, fun _ hb' => ?_, fun he => ?_⟩
    · exact absurd (hb.symm.trans hb') (by decide)
    · exact absurd (hs.symm.trans he) (by decide)
  | boxUnknown | lost => exact .of_probing room (enterProbing_state _)
  | locked h₀ hs hc lc blk desc hlc hleft =>
    rename_i m₀ c
    obtain ⟨inv₀, -⟩ := inv.ticked h₀ hfirst
    rw [cadence_rowOf hc, Option.toList_none, List.append_nil]
    exact (sceneAccount_move tx (m := { m₀ with
        cad := c, linkCheck := lc, sceneBlk := blk, fillerDesc := desc })
      s.emit (.inr hs)).enrolled (inv₀.congr rfl rfl rfl rfl rfl inv₀.room.sweep)

/-! ## Steps -/

theorem Enrolled.answered (inv : Enrolled chs m) (complete : Bool) :
    Enrolled chs (masterIdentityAnswered m complete) :=
  inv.congr rfl rfl rfl rfl rfl inv.room.sweep

/-- A box that is moved to another base within its width is moved in time. -/
def BaseStays (p : Pacer) (i : PacerInput) : Prop :=
  ∀ bytes src ev a, i = .frame bytes → p.takes bytes = some (src, ev) →
    p.newAlloc (cleanFrame bytes) = some a → a.width = p.master.alloc.width →
    a.base ≠ p.master.alloc.base → p.master.MayRebase

theorem Enrolled.frame (inv : Enrolled chs p.master) (env : Env) {bytes : List UInt8}
    (hstays : BaseStays p (.frame bytes)) : Enrolled chs (rxIngest env p bytes).1.master := by
  obtain ⟨p₀, ident, frag, complete, hp₀, hnew, ⟨-, heq⟩ | ⟨src, ev, htakes, htaken⟩⟩ :=
    rxIngest_takes env p bytes
  · rw [heq, hp₀]
    exact inv.answered complete
  · have inv₀ : Enrolled chs p₀.master := by
      rw [hp₀]
      exact inv.answered complete
    have hbase : ∀ a, p₀.newAlloc (cleanFrame bytes) = some a → a.width = p₀.master.alloc.width →
        a.base ≠ p₀.master.alloc.base → p₀.master.MayRebase := by
      intro a ha
      rw [hnew] at ha
      rw [hp₀]
      exact hstays bytes src ev a rfl htakes ha
    have inv₁ := inv₀.declare hbase
    obtain ⟨_, _, _, _, _, _, _, _, heq, -⟩ := htaken
    rw [heq]
    exact ((masterRx_move ..).enrolled inv₁).answered _

theorem Enrolled.masterSlot (inv : Enrolled chs p.master) (env : Env)
    (hfirst : p.master.state = .granting → p.master.win.grantTicks = 0 → chs = []) :
    Enrolled (chs ++ (masterSlot env p).2.2.grantRow.toList) (masterSlot env p).1.master := by
  have hslot := (masterNext_move env.tunables p.headamp p.master).enrolled inv hfirst
  obtain ⟨_, ctrl, _, _, _, _, _, _, _, _, heq, -, -, hctrl, -⟩ := masterSlot_eq env p
  have hrow : (Libreac.masterSlot env p).2.2.grantRow
      = (masterNext env.tunables p.headamp p.master).1.rowOf
        (masterNext env.tunables p.headamp p.master).2 := by
    rw [heq]
    unfold Sent.grantRow Master.rowOf
    dsimp only
    split_ifs with hg
    · rw [hctrl (by rw [hg]; decide)]
    · rfl
  rw [hrow, heq]
  exact hslot.answered _

theorem masterInit_enrolled (t : MasterTunables) (placeholder : SceneBody) (src : Mac)
    (cfg : Option ConsoleCfg) (tx : HeadampTx) {fps : ℤ} (hrate : fps ≤ 596522)
    (chs : List (Option ℕ)) :
    let m := masterSetHeadampSrc tx (masterInit t placeholder src cfg fps) true
    Enrolled chs m ∧ m.state = .idle := by
  obtain ⟨hs, -, hgeo, hsweep, -⟩ := masterInit_rests t placeholder src cfg tx fps
  have hwin := geometry_window t hrate
  rw [← hgeo] at hwin
  exact ⟨.of_idle ⟨hwin.1, hwin.2, hsweep⟩ (by rw [hs]; decide) (by rw [hs]; decide), hs⟩

/-- The invariant of a run. -/
structure EnrolInv (log : List PacerEvent) (p : Pacer) : Prop where
  rates : RatesFit p
  rows : Enrolled (enrolledRows log) p.master
  first : p.master.state = .granting → p.master.win.grantTicks = 0 → enrolledRows log = []

theorem EnrolInv.concat {log : List PacerEvent} {e : PacerEvent} (rates : RatesFit e.post)
    (h : Enrolled (enrolledRows log ++ (e.out.sent.bind Sent.grantRow).toList) e.post.master) :
    EnrolInv (log ++ [e]) e.post := by
  have hopens : opensGrant e = true ↔
      e.post.master.state = .granting ∧ e.post.master.win.grantTicks = 0 := by simp [opensGrant]
  by_cases ho : opensGrant e = true
  · have hrows : enrolledRows (log ++ [e]) = [] := by rw [enrolledRows_concat, if_pos ho]
    obtain ⟨hs, hticks⟩ := hopens.mp ho
    refine ⟨rates, ⟨h.room, fun _ hb => ?_, fun he => ?_⟩, fun _ _ => hrows⟩
    · exact ⟨(h.granting hs hb).1, fun hne => absurd hticks hne⟩
    · exact absurd (hs.symm.trans he) (by decide)
  · refine ⟨rates, ?_, fun hs hticks => absurd (hopens.mpr ⟨hs, hticks⟩) ho⟩
    rw [enrolledRows_concat, if_neg ho]
    exact h

theorem EnrolInv.step {log : List PacerEvent} (inv : EnrolInv log p) (env : Env) (i : PacerInput)
    (hstays : BaseStays p i) :
    EnrolInv (log ++ [(pacerMachine env).event p i]) (pacerStep env p i).1 := by
  refine EnrolInv.concat (e := (pacerMachine env).event p i) (inv.rates.step env i) (?_ :
    Enrolled (enrolledRows log ++ ((pacerStep env p i).2.sent.bind Sent.grantRow).toList)
      (pacerStep env p i).1.master)
  have hquiet : ∀ p' : Pacer, p'.master = p.master →
      Enrolled (enrolledRows log ++ []) p'.master := by
    intro p' hm
    rw [hm, List.append_nil]
    exact inv.rows
  cases i with
  | frame bytes =>
    have hframe := inv.rows.frame env hstays
    rw [← List.append_nil (enrolledRows log)] at hframe
    exact hframe
  | slot =>
    simp only [pacerStep, pacerSlot, rateDrain, Option.bind_some]
    by_cases hpend : p.rateReqPending = true
    · rw [if_pos hpend]
      obtain ⟨cfg, hm⟩ := applyRate_master env { p with rateReqSeen := p.rateReqSeq } p.rateReqHz
      obtain ⟨inv₀, hidle⟩ := masterInit_enrolled env.tunables env.placeholder p.src cfg p.headamp
        inv.rates.fps (enrolledRows log)
      rw [← show _ = _ from hm] at inv₀ hidle
      refine inv₀.masterSlot env ?_
      intro hs
      exact absurd (hidle.symm.trans hs) (by decide)
    · rw [if_neg hpend]
      exact inv.rows.masterSlot env inv.first
  | requestRate r => exact hquiet _ rfl
  | requestReestablish => exact hquiet _ rfl
  | headampSet ch param value =>
    refine hquiet _ ?_
    simp only [pacerStep, headampSet]
    split_ifs <;> rfl

theorem enrolInv_open (env : Env) (cfg : PacerCfg) : EnrolInv [] (pacerOpen env cfg) :=
  ⟨ratesFit_open env cfg, (masterInit_enrolled env.tunables env.placeholder cfg.srcMac
    (some cfg.consoleCfg) (headampOpen cfg.fps cfg.headamps) cfg.fps_le []).1, fun _ _ => rfl⟩

theorem enrolInv_run (env : Env) (cfg : PacerCfg) (is : List PacerInput)
    (hstays : ∀ log e, (pacerMachine env).StepOf (pacerOpen env cfg) is log e →
      BaseStays e.pre e.input) :
    EnrolInv ((pacerMachine env).trace (pacerOpen env cfg) is)
      ((pacerMachine env).run (pacerOpen env cfg) is) :=
  (pacerMachine env).trace_invariant (H := EnrolInv) (L := fun _ e => BaseStays e.pre e.input)
    (enrolInv_open env cfg) (fun _ _ i inv hs => inv.step env i hs) is hstays

/-- As long as no box is moved to another base behind its first group-A row, the channels enrolled on
the wire are the ones of the allocation in force, in every ESTABLISHED state. -/
theorem enrolled_is_addressed (env : Env) (cfg : PacerCfg) (is : List PacerInput)
    (hstays : ∀ log e, (pacerMachine env).StepOf (pacerOpen env cfg) is log e →
      BaseStays e.pre e.input) :
    let p := (pacerMachine env).run (pacerOpen env cfg) is
    p.master.state = .established → ∀ ch,
      some ch ∈ enrolledRows ((pacerMachine env).trace (pacerOpen env cfg) is) ↔
        p.master.alloc.base ≤ ch ∧ ch < p.master.alloc.base + p.master.alloc.width := by
  intro p hest ch
  obtain ⟨hbox, hrows⟩ := (enrolInv_run env cfg is hstays).rows.established hest
  rw [hrows]
  exact mem_sweepChannels (hasBox_iff.mp hbox) ch

/-- A hunting desk has no box to move. -/
theorem Hunting.baseStays (h : Hunting p) (i : PacerInput) : BaseStays p i := by
  intro bytes src ev a _ _ _ _ _
  constructor
  · rw [h.state]
    decide
  · intro hs
    exact absurd (h.state.symm.trans hs) (by decide)

theorem announce_baseStays {bytes : List UInt8} {n k : ℕ}
    (h : Hunting ((pacerMachine env).run p (List.replicate n .slot))) {log : List PacerEvent}
    {e : PacerEvent} (he : (pacerMachine env).StepOf p (announceRun bytes n k) log e) :
    BaseStays e.pre e.input := by
  rcases stepOf_announce he with hslot | ⟨-, rfl⟩
  · intro bytes src ev a hi
    rw [hslot] at hi
    cases hi
  · exact h.baseStays _

/-- A desk and its stage box: the sixteen inputs at base 0. -/
theorem enrolled_is_addressed_stageBox : ∃ is : List PacerInput,
    let p := (pacerMachine deskEnv).run (pacerOpen deskEnv deskCfg) is
    p.master.state = .established ∧ p.master.alloc = stageBoxAlloc ∧ ∀ ch,
      some ch ∈ enrolledRows ((pacerMachine deskEnv).trace (pacerOpen deskEnv deskCfg) is) ↔
        p.master.alloc.base ≤ ch ∧ ch < p.master.alloc.base + p.master.alloc.width := by
  obtain ⟨n, k, -, hhunt, -, hest, halloc, -⟩ :=
    (rested_open deskEnv deskCfg (by decide)).establishes stageBox_declares deskEnv
  exact ⟨_, hest, halloc, enrolled_is_addressed deskEnv deskCfg _
    (fun _ _ he => announce_baseStays hhunt he) hest⟩

/-- The stage box with a third output card, strapped one unit up. -/
theorem stageBox_moves :
    BoxDeclares deskMac (configFrame stageBox 1 4 3) stageBox ⟨16, 12, 16⟩ ⟨16, 16, by decide⟩ :=
  ⟨⟨by decide +kernel, by decide +kernel, by decide +kernel⟩, by decide +kernel, by decide +kernel,
    by decide +kernel⟩

theorem masterRx_config_established (tx : HeadampTx) (hs : m.state = .established) (src : Mac)
    (blk : Option Block) : (masterRx tx m .config src blk).1.state = .established ∧
      (masterRx tx m .config src blk).1.alloc = m.alloc := by
  have hmove := masterRx_move tx m .config src blk
  generalize masterRx tx m .config src blk = r at hmove
  obtain ⟨m', changed⟩ := r
  have hm₁ : ∀ {m₁ : Master}, Heard m m₁ → m₁.state = .established ∧ m₁.alloc = m.alloc := by
    intro m₁ h₁
    obtain ⟨seen, lc, rfl⟩ := h₁.of_ne_idle (by rw [hs]; decide)
    exact ⟨hs, rfl⟩
  cases hmove with
  | refused => exact ⟨hs, rfl⟩
  | stay _ h₁ => exact hm₁ h₁
  | held h₁ hp | latch h₁ hp => exact absurd ((hm₁ h₁).1.symm.trans hp) (by decide)
  | relatch _ _ hev => cases hev
  | accept _ h₁ hg => exact absurd ((hm₁ h₁).1.symm.trans hg) (by decide)
  | bye _ _ _ hev => cases hev

/-- An established box declares the width it was granted at another base: the allocation follows it,
and the session stands. -/
theorem rebase_established {bytes : List UInt8} {src : Mac} {ports : BoxPorts} {a : GrantAlloc}
    (hest : p.master.state = .established) (hmac : p.master.boxMac = src)
    (hd : BoxDeclares p.src bytes src ports a) (hw : ports.inCh = p.master.alloc.width)
    (hout : ports.outCh ≠ p.declaredOut) (env : Env) :
    (pacerStep env p (.frame bytes)).1.master.state = .established ∧
      (pacerStep env p (.frame bytes)).1.master.alloc = a := by
  have htaken := hd.sends.taken env (by simp [Master.peerAccepts, hest, hmac])
  obtain ⟨rows, box, -, hdecl⟩ := rxDeclare_applied hd.len hd.ports_eq hd.alloc (.inr hout) (.inl hw)
  rw [hdecl] at htaken
  obtain ⟨hest', halloc'⟩ := masterRx_config_established p.headamp
    (m := p.master.declared a rows) hest src (eventBlock .config (cleanFrame bytes))
  obtain ⟨_, _, _, _, _, _, _, _, heq, -⟩ := htaken
  simp only [pacerStep]
  rw [heq]
  exact ⟨hest', halloc'⟩

/-- A frame sends nothing, and opens no window where the session stands. -/
theorem enrolledRows_frame (env : Env) (log : List PacerEvent) {bytes : List UInt8}
    (hest : (pacerStep env p (.frame bytes)).1.master.state = .established) :
    enrolledRows (log ++ [(pacerMachine env).event p (.frame bytes)]) = enrolledRows log := by
  have hs : ((pacerMachine env).step p (.frame bytes)).1.master.state = .established := hest
  rw [enrolledRows_concat, if_neg (by simp [opensGrant, hs])]
  exact List.append_nil _

/-- The established stage box declares another card at another strap: the allocation follows it to
base 16, and no row of the sixteen channels there has been sent. -/
theorem rebase_not_enrolled : ∃ is : List PacerInput,
    let p := (pacerMachine deskEnv).run (pacerOpen deskEnv deskCfg) is
    p.master.state = .established ∧ p.master.alloc.base = 16 ∧ p.master.alloc.width = 16 ∧ ∀ ch,
      some ch ∈ enrolledRows ((pacerMachine deskEnv).trace (pacerOpen deskEnv deskCfg) is) ↔
        ch < 16 := by
  obtain ⟨n, k, -, hhunt, -, hest, halloc, hmac, -, hout, hsrc, -⟩ :=
    (rested_open deskEnv deskCfg (by decide)).establishes stageBox_declares deskEnv
  have inv := enrolInv_run deskEnv deskCfg (announceRun (configFrame stageBox 0 4 2) n k)
    (fun _ _ he => announce_baseStays hhunt he)
  generalize announceRun (configFrame stageBox 0 4 2) n k = is at *
  generalize hp : (pacerMachine deskEnv).run (pacerOpen deskEnv deskCfg) is = p at *
  have hmoves := stageBox_moves
  rw [← show p.src = deskMac from hsrc] at hmoves
  generalize configFrame stageBox 1 4 3 = bytes at hmoves
  obtain ⟨hest', halloc'⟩ := rebase_established hest hmac hmoves (by rw [halloc]; rfl)
    (by rw [hout]; decide) deskEnv
  refine ⟨is ++ [.frame bytes], ?_⟩
  dsimp only
  rw [Reactive.Machine.run_concat, Reactive.Machine.trace_concat, hp, enrolledRows_frame _ _ hest',
    (inv.rows.established hest).2, halloc]
  refine ⟨hest', congrArg GrantAlloc.base halloc', congrArg GrantAlloc.width halloc', ?_⟩
  intro ch
  rw [mem_sweepChannels (by decide)]
  simp [stageBoxAlloc]

end Libreac
