import Libreac.PacerLoop
import Libreac.Proofs.PhantomProofs
import Libreac.Proofs.SessionProofs

/-!
# Proofs: the preamp settings of a session

Every entry into ESTABLISHED replays the whole scene of the allocation, and every change goes out
once. So a session with nothing left to send has stamped every cell of its allocation with the value
in force. A stamped frame is not a frame on the wire: nothing is sent again for a send that failed.
-/

namespace Libreac

open Reactive (sinceLast sinceLast_concat)

variable {env : Env} {p : Pacer} {t t' : HeadampTx} {ch param : ℕ}

/-! ## What a session sends -/

/-- A step of the pacer with its send. -/
abbrev SendEvent := Reactive.Event Pacer (PacerInput × Bool) SendOut

/-- The step enters ESTABLISHED. -/
def entersSession (e : SendEvent) : Bool :=
  e.pre.master.state ≠ .established ∧ e.post.master.state = .established

/-- The allocation in force at the last entry into ESTABLISHED. -/
def sessionAlloc (log : List SendEvent) : Option GrantAlloc :=
  (log.filter entersSession).getLast?.map (·.post.master.alloc)

/-- The head-amp record stamped into the frame of the step. -/
def stampedRecord (e : SendEvent) : Option (ℕ × ℕ × UInt8) := e.out.out.sent.bind Sent.record

/-- The head-amp record that left with it. -/
def sentRecord (e : SendEvent) : Option (ℕ × ℕ × UInt8) := e.out.left.bind Sent.record

/-- Among these steps `e` is the last with a record for the cell of `r`, and its record is `r`. -/
def LastRecord (record : SendEvent → Option (ℕ × ℕ × UInt8)) (log : List SendEvent) (e : SendEvent)
    (r : ℕ × ℕ × UInt8) : Prop :=
  ∃ log₁ log₂, log = log₁ ++ e :: log₂ ∧ record e = some r ∧
    ∀ e' ∈ log₂, ∀ value, record e' ≠ some (r.1, r.2.1, value)

/-- A session with nothing left to send. -/
structure Pacer.Asserted (p : Pacer) : Prop where
  state : p.master.state = .established
  clean : ∀ ch param, p.headamp.dirty ch param = false
  replay : p.headamp.replayWidth = 0

/-- The last record that left for every cell of the current allocation carries its value. -/
def PreampSent (log : List SendEvent) (p : Pacer) : Prop :=
  ∀ ch param, p.master.alloc.Has ch → param < headampNparams →
    ∃ e, LastRecord sentRecord (sinceLast entersSession log) e (p.headamp.record (ch, param))

/-- The last record stamped for every cell of the allocation the session was entered with carries its
value, and where that frame left it is the last record that left for the cell. -/
def PreampStamped (log : List SendEvent) (p : Pacer) : Prop :=
  ∃ a, sessionAlloc log = some a ∧ ∀ ch param, a.Has ch → param < headampNparams →
    ∃ e, LastRecord stampedRecord (sinceLast entersSession log) e (p.headamp.record (ch, param)) ∧
      (e.input.2 = true →
        LastRecord sentRecord (sinceLast entersSession log) e (p.headamp.record (ch, param)))

theorem sessionAlloc_concat (log : List SendEvent) (e : SendEvent) :
    sessionAlloc (log ++ [e]) =
      if entersSession e then some e.post.master.alloc else sessionAlloc log := by
  unfold sessionAlloc
  rw [List.filter_append]
  cases h : entersSession e with
  | false => simp [h]
  | true => simp [h]

theorem LastRecord.concat {record : SendEvent → Option (ℕ × ℕ × UInt8)} {log : List SendEvent}
    {e e' : SendEvent} {r : ℕ × ℕ × UInt8} (h : LastRecord record log e r)
    (hne : ∀ value, record e' ≠ some (r.1, r.2.1, value)) : LastRecord record (log ++ [e']) e r := by
  obtain ⟨log₁, log₂, rfl, hrec, hlater⟩ := h
  refine ⟨log₁, log₂ ++ [e'], by simp, hrec, ?_⟩
  intro e'' he''
  rcases List.mem_append.mp he'' with he'' | he''
  · exact hlater e'' he''
  · obtain rfl := List.mem_singleton.mp he''
    exact hne

theorem lastRecord_self {record : SendEvent → Option (ℕ × ℕ × UInt8)} (log : List SendEvent)
    {e : SendEvent} {r : ℕ × ℕ × UInt8} (h : record e = some r) :
    LastRecord record (log ++ [e]) e r := by
  refine ⟨log, [], rfl, h, ?_⟩
  intro e' he'
  cases he'

/-- What left was stamped, and the send decides whether it left. -/
theorem sentRecord_eq (env : Env) (p : Pacer) (i : PacerInput × Bool) :
    let e := (sendMachine env).event p i
    sentRecord e = if e.input.2 = true then stampedRecord e else none := by
  dsimp only [sentRecord, stampedRecord, sendMachine, Reactive.Machine.event, sendStep]
  split_ifs <;> rfl

/-! ## Cells that are settled -/

/-- The replay is still to come to the cell. -/
def HeadampTx.Ahead (t : HeadampTx) (a : GrantAlloc) (ch param : ℕ) : Prop :=
  t.replayBase = a.base ∧ t.replayWidth = a.width ∧
    t.replayIdx ≤ (ch - a.base) * headampNparams + param

/-- The value of the cell has been stamped, or is still to be. -/
def Settled (log : List SendEvent) (t : HeadampTx) (a : GrantAlloc) (ch param : ℕ) : Prop :=
  t.dirty ch param = true ∨ t.Ahead a ch param ∨
    ∃ e, LastRecord stampedRecord log e (t.record (ch, param))

variable {a : GrantAlloc} {log : List SendEvent} {e : SendEvent}

theorem record_congr
    (h : headampTxEffective (some t') ch param = headampTxEffective (some t) ch param) :
    t'.record (ch, param) = t.record (ch, param) := by
  unfold HeadampTx.record
  rw [h]

theorem Settled.cells {d : HeadampTx} (h : Settled log t a ch param) (hcells : CellsSet t d) :
    Settled log d a ch param := by
  rcases hcells.cell ch param with hdirty | ⟨hsame, heff⟩
  · exact .inl hdirty
  rcases h with hdirty | ⟨hbase, hwidth, hidx⟩ | hlast
  · exact .inl (hsame.trans hdirty)
  · exact .inr (.inl ⟨hcells.base.trans hbase, hcells.width.trans hwidth, hcells.idx.trans_le hidx⟩)
  · rw [← record_congr heff] at hlast
    exact .inr (.inr hlast)

/-- A step that says nothing of the cell leaves it settled. -/
theorem Settled.skip (h : Settled log t a ch param)
    (hdirty : t.dirty ch param = true → t'.dirty ch param = true)
    (heff : headampTxEffective (some t') ch param = headampTxEffective (some t) ch param)
    (hahead : t.Ahead a ch param → t'.Ahead a ch param)
    (hne : ∀ value, stampedRecord e ≠ some (ch, param, value)) :
    Settled (log ++ [e]) t' a ch param := by
  rcases h with hd | ha | ⟨e', hlast⟩
  · exact .inl (hdirty hd)
  · exact .inr (.inl (hahead ha))
  · rw [← record_congr heff] at hlast
    exact .inr (.inr ⟨e', hlast.concat hne⟩)

/-- A cell the replay has not come to is the one it comes to next, or stays ahead of it. -/
theorem HeadampTx.Ahead.next (h : t.Ahead a ch param) (ha : a.Has ch) (hp : param < headampNparams) :
    t.replayCell = (ch, param) ∨ t.replayIdx + 1 ≤ (ch - a.base) * headampNparams + param := by
  obtain ⟨hbase, -, hidx⟩ := h
  obtain ⟨hle, -⟩ := ha
  unfold HeadampTx.replayCell
  unfold headampNparams at *
  by_cases heq : t.replayIdx = (ch - a.base) * 3 + param
  · left
    rw [hbase, heq]
    ext
    · dsimp only
      omega
    · dsimp only
      omega
  · right
    omega

/-- One call of the scheduler. -/
theorem Settled.move {d : HeadampTx} {rec : Option (ℕ × ℕ × UInt8)} (h : Settled log d a ch param)
    (hmove : HeadampMove d t' rec) (hrec : stampedRecord e = rec) (ha : a.Has ch)
    (hp : param < headampNparams) : Settled (log ++ [e]) t' a ch param := by
  have heff := hmove.effective ch param
  by_cases hcell : rec = some (d.record (ch, param))
  · refine .inr (.inr ⟨e, ?_⟩)
    rw [record_congr heff]
    exact lastRecord_self log (hrec.trans hcell)
  have hne : ∀ cell : ℕ × ℕ, rec = some (d.record cell) →
      cell ≠ (ch, param) ∧ ∀ value, stampedRecord e ≠ some (ch, param, value) := by
    intro cell hc
    have hother : cell ≠ (ch, param) := by
      rintro rfl
      exact hcell hc
    refine ⟨hother, ?_⟩
    intro value hv
    rw [hrec, hc] at hv
    obtain ⟨h₁, h₂, -⟩ := (by simpa [HeadampTx.record] using hv : cell.1 = ch ∧ cell.2 = param ∧ _)
    exact hother (Prod.ext h₁ h₂)
  have hnone : rec = none → ∀ value, stampedRecord e ≠ some (ch, param, value) := by
    intro hn value hv
    rw [hrec, hn] at hv
    cases hv
  cases hmove with
  | silent => exact h.skip id heff id (hnone rfl)
  | wait => exact h.skip id heff id (hnone rfl)
  | @edge c q hd =>
    obtain ⟨hother, hquiet⟩ := hne (c, q) rfl
    refine h.skip ?_ heff id hquiet
    intro hdirty
    dsimp only
    rw [setCell_of_ne]
    · exact hdirty
    · rintro ⟨rfl, rfl⟩
      exact hother rfl
  | cell hd =>
    obtain ⟨hother, hquiet⟩ := hne d.replayCell rfl
    refine h.skip id heff ?_ hquiet
    intro hahead
    rcases hahead.next ha hp with heq | hle
    · exact absurd heq hother
    · exact ⟨hahead.1, hahead.2.1, hle⟩
  | last hd _ _ heq =>
    obtain ⟨hother, hquiet⟩ := hne d.replayCell rfl
    refine h.skip id heff ?_ hquiet
    intro hahead
    -- The last cell of the replay has no cell of the allocation behind it.
    rcases hahead.next ha hp with hsame | hle
    · exact absurd hsame hother
    · obtain ⟨hle₁, hlt⟩ := ha
      rw [heq, hahead.2.1] at hle
      unfold headampNparams at hle hp
      omega

/-! ## The step -/

/-- A rate change too leaves a pacer that knows of its session. -/
theorem SessionOk.keeps (ok : SessionOk p) (rates : RatesFit p) (env : Env) (i : PacerInput) :
    SessionOk (pacerStep env p i).1 := by
  cases i with
  | frame bytes => exact (ok.frame env bytes).1
  | slot =>
    have hdrain : SessionOk (rateDrain env p).1 := by
      unfold rateDrain
      split_ifs
      · exact (applyRate_session env { p with rateReqSeen := p.rateReqSeq } rates.fps).1
      · exact ok
    rw [(pacerStep_slot_eq env p).1]
    exact (hdrain.masterSlot env).1
  | requestRate r => exact ⟨ok.room, ok.known, ok.ended⟩
  | requestReestablish => exact ⟨ok.room, ok.known, ok.ended⟩
  | headampSet ch param value =>
    simp only [pacerStep, headampSet]
    split_ifs
    · exact ok
    · exact ⟨ok.room, ok.known, ok.ended⟩

/-- A slot under ESTABLISHED is no grant row. -/
theorem NextMove.established_emit {tm : MasterTunables} {tx : HeadampTx} {m m' : Master} {s : Slot}
    (h : NextMove tm tx m m' s) (hs : m.state = .established) : s.emit ≠ .grant := by
  have hticked : ∀ {m₀ : Master}, Ticked m m₀ → m₀.state = .established := by
    intro m₀ h₀
    obtain ⟨seen, tick, rfl⟩ := h₀.of_ne_idle (by rw [hs]; decide)
    exact hs
  have hcadence : ∀ {m₀ : Master} {c : Cadence}, controlCadence tm m₀ = (c, s) → s.emit ≠ .grant := by
    intro m₀ c hc
    have hne := (controlCadence_emit tm m₀).1
    rwa [hc] at hne
  cases h with
  | hunt _ _ hc => exact hcadence hc
  | locked _ _ hc => exact hcadence hc
  | lost _ _ hc => exact hcadence hc
  | grant h₀ hs₀ | delivered h₀ hs₀ | wait h₀ hs₀ | boxUnknown h₀ hs₀ =>
    rw [hticked h₀] at hs₀
    cases hs₀

/-- What a step that ends in a session does to the table: it stays in the session and makes at most
one call of the scheduler, or it enters the session and arms the scene. -/
inductive PreampStep (p : Pacer) (rec : Option (ℕ × ℕ × UInt8)) (p' : Pacer) : Prop where
  | stays (hs : p.master.state = .established) {d : HeadampTx} (hcells : CellsSet p.headamp d)
      (hmove : HeadampMove d p'.headamp rec ∨ p'.headamp = d ∧ rec = none)
  | enters (hs : p.master.state ≠ .established) {d : HeadampTx}
      (harm : p'.headamp = headampTxArmScene d p'.master.alloc.base p'.master.alloc.width)

theorem masterSlot_preamp (hon : env.noHeadamp = false) (wire : WireOk p) (session : SessionOk p)
    (hest : (masterSlot env p).1.master.state = .established) :
    PreampStep p (masterSlot env p).2.2.record (masterSlot env p).1 := by
  obtain ⟨t', rec, -, hrec, hmove, harm⟩ := masterSlot_table wire.table env
  have hsession := (masterNext_move env.tunables p.headamp p.master).session session.room
  obtain ⟨_, _, _, _, _, _, _, _, _, _, heq, -⟩ := masterSlot_eq env p
  have hmaster : (masterSlot env p).1.master.state = (p.next env).1.state ∧
      (masterSlot env p).1.master.alloc = (p.next env).1.alloc := by
    rw [heq]
    exact ⟨rfl, rfl⟩
  have hnext : (p.next env).1.state = .established := hmaster.1.symm.trans hest
  by_cases hs : p.master.state = .established
  · have hprev := session.known hs
    rw [if_neg (by simp [hprev])] at harm
    refine .stays hs (drained_spec wire.table).2 ?_
    have hpath : MasterPath env.tunables p.headamp p.master (p.next env).1 :=
      (MasterPath.refl _).step .next
    have hannounce := hpath.invariant (fun _ i h => h.step i) (fun _ _ h => h.congr rfl) wire.announce
    have hscene := hpath.invariant (I := Master.SceneBlkOk) (fun _ i h => h.step env.tunables i)
      (fun _ _ h => h) wire.scene
    have hemit : (p.next env).2.emit ≠ .grant :=
      (masterNext_move env.tunables p.headamp p.master).established_emit hs
    rw [masterStamp_record hannounce hscene hemit, Option.or_none] at hrec
    rw [Sent.record, hrec, harm]
    rcases hmove with ⟨-, hmove⟩ | ⟨-, rfl, hnone⟩
    · exact .inl hmove
    · exact .inr ⟨rfl, hnone⟩
  · refine .enters hs (d := t') ?_
    have hprev : p.prevState ≠ .established := by
      intro hprev
      rcases session.ended hprev with he | ⟨-, hfresh⟩
      · exact hs he
      · rcases hsession with ⟨-, hwas⟩ | ⟨-, hne, -⟩
        · exact hs (hwas hnext)
        · exact hne hfresh
    rw [harm, hmaster.2, if_pos ⟨hnext, hprev, hon⟩]

theorem pacerStep_preamp (hon : env.noHeadamp = false) (wire : WireOk p) (session : SessionOk p)
    (rates : RatesFit p) (i : PacerInput) (hest : (pacerStep env p i).1.master.state = .established) :
    PreampStep p ((pacerStep env p i).2.sent.bind Sent.record) (pacerStep env p i).1 := by
  cases i with
  | frame bytes =>
    have hstep := (session.frame env bytes).2
    simp only [pacerStep] at hest ⊢
    rcases rxIngest_headamp env p bytes with ⟨heq, hwas⟩ | ⟨harm, -, s, hs⟩
    · exact .stays (hwas hon hest) (.refl _) (.inr ⟨heq, rfl⟩)
    · refine .enters ?_ harm
      rcases hstep with ⟨-, hnone, -⟩ | ⟨hg, -⟩
      · exact absurd hs (hnone s)
      · rw [hg]
        decide
  | slot =>
    simp only [pacerStep, pacerSlot_eq] at hest ⊢
    rw [Option.bind_some]
    by_cases hpend : p.rateReqPending = true
    · have hdrain : (rateDrain env p).1
          = (applyRate env { p with rateReqSeen := p.rateReqSeq } p.rateReqHz).1 := by
        unfold rateDrain
        rw [if_pos hpend]
      obtain ⟨session₀, hidle, -⟩ := applyRate_session env
        { p with rateReqSeen := p.rateReqSeq } rates.fps
      rw [← hdrain] at session₀ hidle
      -- A master that has just been initialised is in no session one slot later.
      rcases (session₀.masterSlot env).2 with ⟨hnone, -⟩ | ⟨hg, -⟩
      · refine absurd ⟨?_, hest⟩ hnone
        rw [hidle]
        decide
      · rw [hidle] at hg
        cases hg
    · have hdrain : (rateDrain env p).1 = p := by
        unfold rateDrain
        rw [if_neg hpend]
      rw [hdrain] at hest ⊢
      exact masterSlot_preamp hon wire session hest
  | requestRate r => exact .stays hest (.refl _) (.inr ⟨rfl, rfl⟩)
  | requestReestablish => exact .stays hest (.refl _) (.inr ⟨rfl, rfl⟩)
  | headampSet ch param value =>
    have hsame : (headampSet p ch param value).master = p.master ∧
        (headampSet p ch param value).headamp = p.headamp := by
      unfold headampSet
      split_ifs <;> exact ⟨rfl, rfl⟩
    simp only [pacerStep] at hest ⊢
    rw [hsame.1] at hest
    exact .stays hest (.refl _) (.inr ⟨hsame.2, rfl⟩)

/-! ## Runs -/

/-- Under a session every cell of its allocation is settled. -/
structure PreampInv (log : List SendEvent) (p : Pacer) : Prop where
  wire : WireOk p
  session : SessionOk p
  rates : RatesFit p
  cells : p.master.state = .established → ∃ a, sessionAlloc log = some a ∧
    ∀ ch param, a.Has ch → param < headampNparams →
      Settled (sinceLast entersSession log) p.headamp a ch param

theorem PreampInv.step {log : List SendEvent} (inv : PreampInv log p) (hon : env.noHeadamp = false)
    (i : PacerInput × Bool) :
    PreampInv (log ++ [(sendMachine env).event p i]) ((sendMachine env).step p i).1 := by
  have hsession : SessionOk (pacerStep env p i.1).1 := inv.session.keeps inv.rates env i.1
  refine ⟨inv.wire.step env i.1, hsession, inv.rates.step env i.1, ?_⟩
  intro hest
  have hstep := pacerStep_preamp hon inv.wire inv.session inv.rates i.1 hest
  rw [sessionAlloc_concat, sinceLast_concat]
  cases hstep with
  | @stays hs d hcells hmove =>
    have hstays : entersSession ((sendMachine env).event p i) = false := by
      simp [entersSession, hs]
    obtain ⟨a, halloc, hcell⟩ := inv.cells hs
    rw [hstays]
    refine ⟨a, halloc, ?_⟩
    intro ch param ha hp
    have hsettled := (hcell ch param ha hp).cells hcells
    rcases hmove with hmove | ⟨heq, hnone⟩
    · exact hsettled.move hmove rfl ha hp
    · refine hsettled.skip ?_ ?_ ?_ ?_
      · intro hd
        exact (congrFun (congrFun (congrArg HeadampTx.dirty heq) ch) param).trans hd
      · exact congrArg (fun t => headampTxEffective (some t) ch param) heq
      · intro hahead
        rw [← heq] at hahead
        exact hahead
      · intro value hv
        exact absurd (hnone.symm.trans hv) (by simp)
  | @enters hs d harm =>
    have henters : entersSession ((sendMachine env).event p i) = true := by
      simp only [entersSession, decide_eq_true_eq]
      exact ⟨hs, hest⟩
    rw [henters]
    refine ⟨_, rfl, ?_⟩
    intro ch param ha _
    have hpos : 0 < (pacerStep env p i.1).1.master.alloc.width := by
      obtain ⟨hle, hlt⟩ : _ ≤ ch ∧ ch < _ + (pacerStep env p i.1).1.master.alloc.width := ha
      omega
    have harmed : ((sendMachine env).step p i).1.headamp = headampTxArmScene d
        (pacerStep env p i.1).1.master.alloc.base (pacerStep env p i.1).1.master.alloc.width := harm
    rw [headampTxArmScene_alloc d hpos] at harmed
    rw [harmed]
    exact .inr (.inl ⟨rfl, rfl, Nat.zero_le _⟩)

theorem preampInv_open (env : Env) (cfg : PacerCfg) : PreampInv [] (pacerOpen env cfg) := by
  have session := (sessionInv_open env cfg).ok
  refine ⟨wireOk_open env cfg, session, ratesFit_open env cfg, ?_⟩
  intro hest
  exact absurd (session.known hest) nofun

/-- A settled cell of a session with nothing left to send has been stamped. -/
theorem Settled.stamped {log : List SendEvent} (h : Settled log p.headamp a ch param)
    (hdone : p.Asserted) (ha : a.Has ch) :
    ∃ e, LastRecord stampedRecord log e (p.headamp.record (ch, param)) := by
  rcases h with hdirty | ⟨-, hwidth, -⟩ | hlast
  · rw [hdone.clean] at hdirty
    cases hdirty
  · obtain ⟨hle, hlt⟩ := ha
    rw [hdone.replay] at hwidth
    omega
  · exact hlast

/-- Whatever the order of commands, sessions and sends: in a session with nothing left to send, the
last record stamped for each cell carries its value, and only a failed send keeps it off the wire. -/
theorem preamp_stamped (env : Env) (hon : env.noHeadamp = false) (cfg : PacerCfg)
    (is : List (PacerInput × Bool))
    (hdone : ((sendMachine env).run (pacerOpen env cfg) is).Asserted) :
    PreampStamped ((sendMachine env).trace (pacerOpen env cfg) is)
      ((sendMachine env).run (pacerOpen env cfg) is) := by
  have inv : PreampInv ((sendMachine env).trace (pacerOpen env cfg) is)
      ((sendMachine env).run (pacerOpen env cfg) is) := by
    refine (sendMachine env).trace_invariant (L := fun _ _ => True) (preampInv_open env cfg) ?_ is
      fun _ _ _ => trivial
    intro log p i h _
    exact h.step hon i
  obtain ⟨a, halloc, hcells⟩ := inv.cells hdone.state
  refine ⟨a, halloc, ?_⟩
  intro ch param ha hp
  obtain ⟨e, log₁, log₂, hlog, hrec, hlater⟩ := (hcells ch param ha hp).stamped hdone ha
  refine ⟨e, ⟨log₁, log₂, hlog, hrec, hlater⟩, ?_⟩
  intro hsent
  have hmem : ∀ e' ∈ log₁ ++ e :: log₂, sentRecord e'
      = if e'.input.2 = true then stampedRecord e' else none := by
    intro e' he'
    rw [← hlog] at he'
    obtain ⟨pre, post, htrace⟩ := List.append_of_mem (Reactive.mem_of_mem_sinceLast _ he')
    obtain ⟨-, i, -, -, -, rfl⟩ := (sendMachine env).trace_split htrace
    exact sentRecord_eq env _ i
  refine ⟨log₁, log₂, hlog, ?_, ?_⟩
  · rw [hmem e (by simp), if_pos hsent]
    exact hrec
  · intro e' he' value hv
    rw [hmem e' (by simp [he'])] at hv
    split_ifs at hv
    exact hlater e' he' value hv

/-! ## A replay runs out -/

/-- The clocks of the locked cadence, summed: a slot that is no filler sets one of them back. -/
def Cadence.lag (c : Cadence) : ℤ :=
  c.announceTick + c.estChanmapTick + (if 0 < c.identityPollLeft then c.identityPollSlot else 0)

/-- The clocks of the locked cadence. -/
structure Cadence.Ticking (c : Cadence) : Prop where
  announce : 0 ≤ c.announceTick
  chanmap : 0 ≤ c.estChanmapTick
  poll : 0 < c.identityPollLeft → 0 ≤ c.identityPollSlot

theorem identityPoll_lag {g : Geometry} (complete : Bool) {c : Cadence} (hstride : g.grantStride = 12)
    (ht : c.Ticking) :
    let r := identityPoll g complete c
    r.1.Ticking ∧ r.2.emit.isScene = false ∧
      (r.2.emit = .filler ∧ r.1.lag ≤ c.lag + 1 ∨ r.1.lag + 2 < c.lag) := by
  obtain ⟨hannounce, hchanmap, hpoll⟩ := ht
  unfold identityPoll Cadence.lag
  by_cases hleft : 0 < c.identityPollLeft
  · have hslot := hpoll hleft
    rw [if_pos hleft, if_pos hleft]
    by_cases hdue : g.grantStride ≤ c.identityPollSlot + 1
    · rw [if_pos hdue]
      refine ⟨⟨hannounce, hchanmap, fun _ => le_refl _⟩, rfl, .inr ?_⟩
      dsimp only
      split_ifs <;> omega
    · rw [if_neg hdue]
      refine ⟨⟨hannounce, hchanmap, fun _ => by dsimp only; omega⟩, rfl, .inl ⟨rfl, ?_⟩⟩
      dsimp only
      rw [if_pos hleft]
      omega
  · rw [if_neg hleft, if_neg hleft]
    split_ifs
    · refine ⟨⟨hannounce, hchanmap, fun _ => le_refl _⟩, rfl, .inl ⟨rfl, ?_⟩⟩
      dsimp only
      split_ifs <;> omega
    · refine ⟨⟨hannounce, hchanmap, hpoll⟩, rfl, .inl ⟨rfl, ?_⟩⟩
      dsimp only
      rw [if_neg hleft]
      omega

/-- A slot of the locked cadence is a filler, or sets one of its clocks back. -/
theorem controlCadence_lag {tm : MasterTunables} {m : Master} (hs : m.state = .established)
    (hscene : tm.estScene = false) (hfps : 4 ≤ m.geo.fps) (hstride : m.geo.grantStride = 12)
    (ht : m.cad.Ticking) :
    let r := controlCadence tm m
    r.1.Ticking ∧ r.2.emit.isScene = false ∧
      (r.2.emit = .filler ∧ r.1.lag ≤ m.cad.lag + 3 ∨ r.1.lag < m.cad.lag) := by
  have hannounce := ht.announce
  have hchanmap := ht.chanmap
  unfold controlCadence lockedCadence
  dsimp only
  rw [if_pos hs, hscene]
  by_cases ha : m.geo.fps ≤ m.cad.announceTick + 1
  · rw [if_pos ha]
    refine ⟨⟨le_refl _, by dsimp only; omega, ht.poll⟩, rfl, .inr ?_⟩
    unfold Cadence.lag
    dsimp only
    omega
  rw [if_neg ha]
  by_cases hc : m.geo.fps ≤ m.cad.estChanmapTick + 1
  · rw [if_pos hc]
    refine ⟨⟨by dsimp only; omega, le_refl _, ht.poll⟩, rfl, .inr ?_⟩
    unfold Cadence.lag
    dsimp only
    omega
  rw [if_neg hc]
  simp only [Bool.false_eq_true, if_false]
  obtain ⟨ht', hquiet, hlag⟩ := identityPoll_lag m.identityComplete hstride
    (c := { m.cad with
      cyclePos := (m.cad.cyclePos + 1).tmod m.geo.cycleLen
      announceTick := m.cad.announceTick + 1, estChanmapTick := m.cad.estChanmapTick + 1 })
    ⟨by dsimp only; omega, by dsimp only; omega, ht.poll⟩
  refine ⟨ht', hquiet, ?_⟩
  have hsum : Cadence.lag { m.cad with
      cyclePos := (m.cad.cyclePos + 1).tmod m.geo.cycleLen
      announceTick := m.cad.announceTick + 1, estChanmapTick := m.cad.estChanmapTick + 1 }
      = m.cad.lag + 2 := by
    unfold Cadence.lag
    dsimp only
    omega
  rw [hsum] at hlag
  rcases hlag with ⟨hfill, hle⟩ | hlt
  · exact .inl ⟨hfill, hle.trans (by omega)⟩
  · exact .inr (lt_of_add_lt_add_right hlt)

/-- What the replay owes: its calls of the scheduler up to the last cell. -/
def HeadampTx.owed (t : HeadampTx) : ℕ :=
  if t.replayWidth = 0 then 0
  else (t.replayWidth * headampNparams - 1 - t.replayIdx) * 12 + t.replayWait + 1

theorem HeadampMove.owed {rec : Option (ℕ × ℕ × UInt8)} (h : HeadampMove t t' rec)
    (hclean : ∀ c p, t.dirty c p = false) (hpos : 0 < t.owed) :
    t'.owed + 1 = t.owed ∧ ∀ c p, t'.dirty c p = false := by
  unfold HeadampTx.owed at hpos ⊢
  cases h with
  | silent _ hw =>
    rw [if_pos hw] at hpos
    omega
  | edge hd =>
    rw [hclean] at hd
    cases hd
  | wait hd hw hwait =>
    refine ⟨?_, hclean⟩
    dsimp only
    rw [if_neg hw, if_neg hw]
    omega
  | cell hd hw hwait hlt =>
    refine ⟨?_, hclean⟩
    dsimp only
    rw [if_neg hw, if_neg hw, hwait]
    omega
  | last hd hw hwait heq =>
    refine ⟨?_, hclean⟩
    dsimp only
    rw [if_pos rfl, if_neg hw, hwait]
    omega

/-- A slot of a link that is not lost. -/
theorem masterNext_locked {tm : MasterTunables} (tx : HeadampTx) {m : Master}
    (hs : m.state = .established) (hscene : tm.estScene = false) (hfps : 4 ≤ m.geo.fps)
    (hstride : m.geo.grantStride = 12) (ht : m.cad.Ticking) (hlink : 2 ≤ m.linkCheck) :
    ∃ seen tick, masterNext tm tx m = ({ m with
      counter := m.counter + 1, boxSeen := seen, presenceTick := tick
      cad := (controlCadence tm m).1, linkCheck := m.linkCheck - 1 }, (controlCadence tm m).2) := by
  obtain ⟨-, hquiet, -⟩ := controlCadence_lag hs hscene hfps hstride ht
  have hdecay : ∃ seen tick, presenceDecay (promoteIdle tx { m with counter := m.counter + 1 })
      = { m with counter := m.counter + 1, boxSeen := seen, presenceTick := tick } := by
    unfold promoteIdle
    rw [if_neg (by rw [hs]; decide)]
    unfold presenceDecay
    split_ifs
    · exact ⟨_, _, rfl⟩
    · exact ⟨_, _, rfl⟩
  obtain ⟨seen, tick, hdecay⟩ := hdecay
  refine ⟨seen, tick, ?_⟩
  have hbranch : ∀ m₀ : Master, m₀.state = .established →
      slotByState tm tx m₀ = slotEstablished tm tx m₀ := by
    intro m₀ h₀
    unfold slotByState
    rw [h₀]
  have hslot : slotByState tm tx { m with
      counter := m.counter + 1, boxSeen := seen, presenceTick := tick } = ({ m with
      counter := m.counter + 1, boxSeen := seen, presenceTick := tick
      cad := (controlCadence tm m).1, linkCheck := m.linkCheck - 1 }, (controlCadence tm m).2) := by
    refine (hbranch { m with
      counter := m.counter + 1, boxSeen := seen, presenceTick := tick } hs).trans ?_
    unfold slotEstablished
    dsimp only
    rw [if_neg (by omega)]
    rfl
  unfold masterNext
  dsimp only
  rw [hdecay, hslot, hquiet, if_neg (by decide), sceneAccount_of_not_scene _ _ hquiet]

/-- A session without commands, whose link outlasts what the replay owes. -/
structure Replaying (tm : MasterTunables) (p : Pacer) : Prop where
  idles : Idles p
  wire : WireOk p
  state : p.master.state = .established
  prev : p.prevState = .established
  clean : ∀ ch param, p.headamp.dirty ch param = false
  scene : tm.estScene = false
  fps : 4 ≤ p.master.geo.fps
  stride : p.master.geo.grantStride = 12
  ticking : p.master.cad.Ticking
  link : 4 * p.headamp.owed + p.master.cad.lag < p.master.linkCheck

theorem Cadence.Ticking.lag_nonneg {c : Cadence} (h : c.Ticking) : 0 ≤ c.lag := by
  have hannounce := h.announce
  have hchanmap := h.chanmap
  unfold Cadence.lag
  split_ifs with hleft
  · have hpoll := h.poll hleft
    omega
  · omega

/-- The budget of the replay. -/
def Pacer.budget (p : Pacer) : ℤ := 4 * p.headamp.owed + p.master.cad.lag

/-- Every slot takes from the budget, a filler by a call of the scheduler. -/
theorem Replaying.slot (h : Replaying env.tunables p) (howed : 0 < p.headamp.owed) :
    Replaying env.tunables (pacerStep env p .slot).1 ∧
      (pacerStep env p .slot).1.master.alloc = p.master.alloc ∧
      (pacerStep env p .slot).1.budget < p.budget := by
  have hlag := h.ticking.lag_nonneg
  have hlink := h.link
  have hlong : 2 ≤ p.master.linkCheck := by omega
  obtain ⟨seen, tick, hnext⟩ := masterNext_locked p.headamp h.state h.scene h.fps h.stride h.ticking
    hlong
  obtain ⟨hticking, -, hcadence⟩ := controlCadence_lag h.state h.scene h.fps h.stride h.ticking
  obtain ⟨t', rec, -, -, hmove, harm⟩ := masterSlot_table h.wire.table env
  have hwire := h.wire.masterSlot env
  have hkeeps := masterSlot_keeps env p
  obtain ⟨_, _, _, _, _, _, _, _, _, _, heq, -⟩ := masterSlot_eq env p
  rw [if_neg (by simp [h.prev])] at harm
  rw [drained_of_idle h.idles.cmds] at hmove
  rw [(pacerStep_slot env h.idles.pending).1]
  unfold Pacer.next at hmove
  rw [hnext] at hmove heq
  have howes : 4 * (t'.owed : ℤ) + (controlCadence env.tunables p.master).1.lag < p.budget ∧
      ∀ ch param, t'.dirty ch param = false := by
    unfold Pacer.budget
    rcases hmove with ⟨-, hmove⟩ | ⟨hno, rfl, -⟩
    · obtain ⟨howes, hclean⟩ := hmove.owed h.clean howed
      refine ⟨?_, hclean⟩
      rcases hcadence with ⟨-, hle⟩ | hlt
      · omega
      · omega
    · refine ⟨?_, h.clean⟩
      rcases hcadence with ⟨hfill, -⟩ | hlt
      · exact absurd ⟨hfill, h.state⟩ hno
      · omega
  have hmaster : (masterSlot env p).1.master.cad = (controlCadence env.tunables p.master).1 ∧
      (masterSlot env p).1.master.linkCheck = p.master.linkCheck - 1 ∧
      (masterSlot env p).1.master.geo = p.master.geo ∧
      (masterSlot env p).1.master.state = .established ∧
      (masterSlot env p).1.prevState = .established ∧ (masterSlot env p).1.headampCmds = [] ∧
      (masterSlot env p).1.master.alloc = p.master.alloc := by
    rw [heq]
    exact ⟨rfl, rfl, rfl, h.state, h.state, rfl, rfl⟩
  obtain ⟨hcad, hcheck, hgeo, hstate, hprev, hcmds, halloc⟩ := hmaster
  have hbudget : (masterSlot env p).1.budget < p.budget := by
    unfold Pacer.budget at howes ⊢
    rw [hcad, harm]
    exact howes.1
  refine ⟨⟨⟨hkeeps.pending.trans h.idles.pending, hcmds⟩, hwire, hstate, hprev, ?_, h.scene, ?_, ?_, ?_,
    ?_⟩, halloc, hbudget⟩
  · rw [harm]
    exact howes.2
  · rw [hgeo]
    exact h.fps
  · rw [hgeo]
    exact h.stride
  · rw [hcad]
    exact hticking
  · unfold Pacer.budget at hbudget
    rw [hcheck]
    omega

theorem Replaying.asserted {tm : MasterTunables} (h : Replaying tm p) (hnone : p.headamp.owed = 0) :
    p.Asserted := by
  refine ⟨h.state, h.clean, ?_⟩
  by_contra hw
  unfold HeadampTx.owed at hnone
  rw [if_neg hw] at hnone
  omega

/-- Left alone, the replay runs out before the link does. -/
theorem Replaying.asserts (h : Replaying env.tunables p) (ok : Bool) : ∃ n,
    let is := List.replicate n (PacerInput.slot, ok)
    ((sendMachine env).run p is).Asserted ∧ ((sendMachine env).run p is).master.alloc = p.master.alloc ∧
      ∀ e ∈ (sendMachine env).trace p is, entersSession e = false ∧ e.input.2 = ok := by
  induction hleft : p.budget.toNat using Nat.strong_induction_on generalizing p with
  | _ left ih =>
    rcases Nat.eq_zero_or_pos p.headamp.owed with hnone | howed
    · refine ⟨0, h.asserted hnone, rfl, ?_⟩
      intro e he
      rw [List.replicate_zero, Reactive.Machine.trace_nil] at he
      cases he
    obtain ⟨hnext, halloc, hless⟩ := h.slot howed
    have hpos : 0 ≤ (pacerStep env p .slot).1.budget := by
      have hlag := hnext.ticking.lag_nonneg
      unfold Pacer.budget
      omega
    obtain ⟨n, hdone, hsame, hlog⟩ := ih _ (by omega) hnext rfl
    refine ⟨n + 1, ?_⟩
    dsimp only
    rw [List.replicate_succ, Reactive.Machine.run_cons, Reactive.Machine.trace_cons]
    refine ⟨hdone, hsame.trans halloc, ?_⟩
    intro e he
    rcases List.mem_cons.mp he with rfl | he
    · refine ⟨?_, rfl⟩
      simp [entersSession, h.state]
    · exact hlog e he

/-! ## A session without an operator -/

/-- A pacer whose table nobody has touched. -/
structure Untouched (g : Geometry) (p : Pacer) : Prop where
  idles : Idles p
  wire : WireOk p
  geo : p.master.geo = g
  clean : ∀ ch param, p.headamp.dirty ch param = false

theorem Untouched.step {g : Geometry} (h : Untouched g p) (env : Env) {i : PacerInput}
    (hi : i = .slot ∨ ∃ bytes, i = .frame bytes) : Untouched g (pacerStep env p i).1 := by
  have hwire := h.wire.step env i
  rcases hi with rfl | ⟨bytes, rfl⟩
  · have hkeeps := masterSlot_keeps env p
    have hgeo := (masterSlot_path env p).continues.geo
    obtain ⟨t', rec, -, -, hmove, harm⟩ := masterSlot_table h.wire.table env
    obtain ⟨_, _, _, _, _, _, _, _, _, _, heq, -⟩ := masterSlot_eq env p
    rw [drained_of_idle h.idles.cmds] at hmove
    rw [(pacerStep_slot env h.idles.pending).1] at hwire ⊢
    have hclean : ∀ ch param, t'.dirty ch param = false := by
      rcases hmove with ⟨-, hmove⟩ | ⟨-, rfl, -⟩
      · exact hmove.clean h.clean
      · exact h.clean
    refine ⟨⟨hkeeps.pending.trans h.idles.pending, by rw [heq]⟩, hwire, hgeo.trans h.geo, ?_⟩
    rw [harm]
    split_ifs
    · rw [headampTxArmScene_dirty]
      exact hclean
    · exact hclean
  · have hkeeps := rxIngest_keeps env p bytes
    have hgeo := (rxIngest_path env p bytes).continues.geo
    refine ⟨⟨hkeeps.pending.trans h.idles.pending, (rxIngest_cmds env p bytes).trans h.idles.cmds⟩,
      hwire, hgeo.trans h.geo, ?_⟩
    simp only [pacerStep]
    rcases rxIngest_headamp env p bytes with ⟨heq, -⟩ | ⟨heq, -⟩
    · rw [heq]
      exact h.clean
    · rw [heq, headampTxArmScene_dirty]
      exact h.clean

/-- The slot that enters the session leaves a whole scene to replay. -/
theorem Untouched.enters {g : Geometry} (h : Untouched g p) (hon : env.noHeadamp = false)
    (hscene : env.tunables.estScene = false) (hprev : p.prevState = .granting)
    (hpos : 0 < p.master.alloc.width) {m₁ : Master} (hwin : WindowsOn p.master m₁)
    (hnext : (p.next env).1 = enterEstablished m₁) (hfps : 4 ≤ g.fps ∧ g.fps ≤ 596522)
    (hstride : g.grantStride = 12) (hlink : g.fps + 6912 ≤ g.linkCheckReload) :
    Replaying env.tunables (pacerStep env p .slot).1 ∧
      (pacerStep env p .slot).1.master.alloc = p.master.alloc := by
  have hstep := h.step env (i := .slot) (.inl rfl)
  obtain ⟨t', rec, -, -, -, harm⟩ := masterSlot_table h.wire.table env
  obtain ⟨_, _, _, _, _, _, _, _, _, _, heq, -⟩ := masterSlot_eq env p
  rw [(pacerStep_slot env h.idles.pending).1] at hstep ⊢
  unfold Pacer.next at hnext harm
  rw [hnext] at heq harm
  have hm₁ : m₁.alloc = p.master.alloc ∧ m₁.geo = g := by
    obtain ⟨_, _, _, _, _, rfl⟩ := hwin
    exact ⟨rfl, h.geo⟩
  rw [if_pos ⟨rfl, by rw [hprev]; decide, hon⟩] at harm
  have harmed : (masterSlot env p).1.headamp
      = headampTxArmScene t' p.master.alloc.base p.master.alloc.width := by
    rw [harm, ← hm₁.1]
    rfl
  rw [headampTxArmScene_alloc _ hpos] at harmed
  have howed : (masterSlot env p).1.headamp.owed ≤ 1717 := by
    have hfits := p.master.alloc.fits.2
    unfold headampCeiling at hfits
    rw [harmed]
    unfold HeadampTx.owed headampNparams
    dsimp only
    rw [if_neg (by omega)]
    omega
  have hmaster : (masterSlot env p).1.master.state = .established ∧
      (masterSlot env p).1.prevState = .established ∧
      (masterSlot env p).1.master.alloc = m₁.alloc ∧
      (masterSlot env p).1.master.linkCheck = m₁.geo.linkCheckReload ∧
      (masterSlot env p).1.master.cad.announceTick = (wrapInt (3 * m₁.geo.fps)).tdiv 4 ∧
      (masterSlot env p).1.master.cad.estChanmapTick = m₁.geo.fps / 4 ∧
      (masterSlot env p).1.master.cad.identityPollLeft = 0 := by
    rw [heq]
    exact ⟨rfl, rfl, rfl, rfl, rfl, rfl, rfl⟩
  obtain ⟨hstate, hprev', halloc, hcheck, hannounce, hchanmap, hleft⟩ := hmaster
  rw [hm₁.2] at hcheck hannounce hchanmap
  rw [wrapInt_of_lt (by omega) (by omega), Int.tdiv_eq_ediv_of_nonneg (by omega)] at hannounce
  refine ⟨⟨hstep.idles, hstep.wire, hstate, hprev', hstep.clean, hscene, ?_, ?_, ?_, ?_⟩,
    halloc.trans hm₁.1⟩
  · rw [hstep.geo]
    exact hfps.1
  · rw [hstep.geo]
    exact hstride
  · refine ⟨?_, ?_, ?_⟩
    · rw [hannounce]
      omega
    · rw [hchanmap]
      omega
    · rw [hleft]
      omega
  · unfold Cadence.lag
    rw [hleft, hannounce, hchanmap, hcheck]
    omega

theorem sendMachine_run (env : Env) (p : Pacer) (is : List PacerInput) (ok : Bool) :
    (sendMachine env).run p (is.map fun i => (i, ok)) = (pacerMachine env).run p is := by
  induction is generalizing p with
  | nil => rfl
  | cons i is ih => exact ih _

/-- A pacer at rest whose box declares itself comes to the slot that enters the session. -/
theorem Rested.enters {g : Geometry} {bytes : List UInt8} {src : Mac} {ports : BoxPorts}
    (h : Rested p) (hd : BoxDeclares p.src bytes src ports a) (hu : Untouched g p)
    (hon : env.noHeadamp = false) (hscene : env.tunables.estScene = false)
    (hfps : 4 ≤ g.fps ∧ g.fps ≤ 596522) (hstride : g.grantStride = 12)
    (hlink : g.fps + 6912 ≤ g.linkCheckReload) : ∃ n k,
    let q := (pacerMachine env).run p (announceRun bytes n k)
    q.master.state ≠ .established ∧ Replaying env.tunables (pacerStep env q .slot).1 ∧
      (pacerStep env q .slot).1.master.alloc = a := by
  obtain ⟨n, -, hhunt, hsrc, -⟩ := h.hunts env
  rw [← hsrc] at hd
  obtain ⟨-, hw, hpos⟩ := grantAllocate_eq_some hd.alloc
  obtain ⟨hwin, halloc, -⟩ := hhunt.declares hd env
  obtain ⟨k, m₀, m₁, hrun, -, hon₀, hwins, hnext⟩ := hwin.delivers env
  obtain ⟨hstate, halloc₀, -⟩ := hon₀.keeps
  refine ⟨n, k, ?_⟩
  have huntouched : Untouched g ((pacerMachine env).run p (announceRun bytes n k)) := by
    refine (pacerMachine env).run_invariant (L := fun _ i => i = .slot ∨ ∃ bytes, i = .frame bytes)
      hu ?_ _ ?_
    · intro p i h hi
      exact h.step env hi
    · intro log e he
      rcases stepOf_announce he with hslot | ⟨-, rfl⟩
      · exact .inl hslot
      · exact .inr ⟨_, rfl⟩
  have hq : (pacerMachine env).run p (announceRun bytes n k) = { (pacerStep env
      ((pacerMachine env).run p (List.replicate n .slot)) (.frame bytes)).1 with master := m₀ } := by
    rw [announceRun, Reactive.Machine.run_append, Reactive.Machine.run_cons]
    exact hrun
  dsimp only
  rw [hq] at huntouched ⊢
  have hgranting : m₀.state = .granting := hstate.trans hwin.window.state
  have hwidth : 0 < m₀.alloc.width := by
    rw [halloc₀, halloc]
    omega
  obtain ⟨hreplay, hsame⟩ := huntouched.enters hon hscene hwin.prev hwidth hwins hnext hfps hstride
    hlink
  refine ⟨?_, hreplay, hsame.trans (halloc₀.trans halloc)⟩
  dsimp only
  rw [hgranting]
  decide

/-- The desk up to the slot that enters the session of its stage box. -/
theorem desk_enters : ∃ is : List PacerInput,
    let p := (pacerMachine deskEnv).run (pacerOpen deskEnv deskCfg) is
    p.master.state ≠ .established ∧ Replaying deskEnv.tunables (pacerStep deskEnv p .slot).1 ∧
      (pacerStep deskEnv p .slot).1.master.alloc = stageBoxAlloc := by
  have hopen : Untouched (geometry deskEnv.tunables 4000) (pacerOpen deskEnv deskCfg) := by
    have hgeo := (masterInit_rests deskEnv.tunables deskEnv.placeholder deskCfg.srcMac
      (some deskCfg.consoleCfg) (headampOpen deskCfg.fps deskCfg.headamps) deskCfg.fps).2.2.1
    exact ⟨⟨rfl, rfl⟩, wireOk_open .., hgeo, fun _ _ => rfl⟩
  have hfps : (500 : ℤ) ≤ deskCfg.fps := by decide
  have hlink : (geometry deskEnv.tunables 4000).fps + 6912
      ≤ (geometry deskEnv.tunables 4000).linkCheckReload := by decide
  have hon : deskEnv.noHeadamp = false := rfl
  have hscene : deskEnv.tunables.estScene = false := rfl
  obtain ⟨n, k, henters⟩ := (rested_open deskEnv deskCfg hfps).enters stageFrame_declares hopen hon
    hscene (by decide) rfl hlink
  exact ⟨_, henters⟩

/-- The session of the stage box, its replay stamped to the end: each send of the session succeeds,
or none does. -/
theorem desk_asserts (ok : Bool) : ∃ is : List (PacerInput × Bool),
    let log := (sendMachine deskEnv).trace (pacerOpen deskEnv deskCfg) is
    let p := (sendMachine deskEnv).run (pacerOpen deskEnv deskCfg) is
    p.Asserted ∧ p.master.alloc = stageBoxAlloc ∧
      ∀ e ∈ sinceLast entersSession log, e.input.2 = ok := by
  obtain ⟨is, hne, hreplay, halloc⟩ := desk_enters
  obtain ⟨n, hdone, hsame, hlog⟩ := hreplay.asserts ok
  refine ⟨is.map (fun i => (i, true)) ++ [(.slot, true)] ++ List.replicate n (.slot, ok), ?_⟩
  have hrun := sendMachine_run deskEnv (pacerOpen deskEnv deskCfg) is true
  dsimp only
  rw [Reactive.Machine.run_append, Reactive.Machine.trace_append, Reactive.Machine.run_append,
    Reactive.Machine.trace_append, hrun]
  generalize (pacerMachine deskEnv).run (pacerOpen deskEnv deskCfg) is = p at *
  refine ⟨hdone, hsame.trans halloc, ?_⟩
  have henters : entersSession ((sendMachine deskEnv).event p (.slot, true)) = true := by
    simp only [entersSession, decide_eq_true_eq]
    exact ⟨hne, hreplay.state⟩
  have hentry : (sendMachine deskEnv).trace p [(.slot, true)]
      = [(sendMachine deskEnv).event p (.slot, true)] := rfl
  have hstep : (sendMachine deskEnv).run p [(.slot, true)] = (pacerStep deskEnv p .slot).1 := rfl
  intro e he
  rw [hstep, Reactive.sinceLast_append _ fun e he => (hlog e he).1, hentry, sinceLast_concat,
    if_pos henters] at he
  rw [List.nil_append] at he
  exact (hlog e he).2

theorem preamp_stamped_desk : ∃ is : List (PacerInput × Bool),
    PreampStamped ((sendMachine deskEnv).trace (pacerOpen deskEnv deskCfg) is)
      ((sendMachine deskEnv).run (pacerOpen deskEnv deskCfg) is) := by
  obtain ⟨is, hdone, -⟩ := desk_asserts true
  exact ⟨is, preamp_stamped deskEnv rfl deskCfg is hdone⟩

/-- The sends of the session all fail. The replay is over, nothing is left to send, and the box has
heard no value of this session. -/
theorem preamp_lost : ∃ is : List (PacerInput × Bool),
    let log := (sendMachine deskEnv).trace (pacerOpen deskEnv deskCfg) is
    let p := (sendMachine deskEnv).run (pacerOpen deskEnv deskCfg) is
    deskEnv.noHeadamp = false ∧ p.Asserted ∧ ¬ PreampSent log p := by
  obtain ⟨is, hdone, halloc, hfailed⟩ := desk_asserts false
  refine ⟨is, rfl, hdone, ?_⟩
  intro hsent
  have hhas : ((sendMachine deskEnv).run (pacerOpen deskEnv deskCfg) is).master.alloc.Has 0 := by
    rw [halloc]
    exact ⟨by decide, by decide⟩
  obtain ⟨e, log₁, log₂, hlog, hleft, -⟩ := hsent 0 0 hhas (by decide)
  have hmem : e ∈ sinceLast entersSession
      ((sendMachine deskEnv).trace (pacerOpen deskEnv deskCfg) is) := by
    rw [hlog]
    simp
  have hfail := hfailed e hmem
  obtain ⟨pre, post, htrace⟩ := List.append_of_mem (Reactive.mem_of_mem_sinceLast _ hmem)
  obtain ⟨is₁, i, _, -, -, rfl⟩ := (sendMachine deskEnv).trace_split htrace
  rw [sentRecord_eq, if_neg] at hleft
  · cases hleft
  · rw [hfail]
    decide

end Libreac
