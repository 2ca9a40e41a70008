import Libreac.Proofs.DeskProofs
import Libreac.Rx

/-!
# Proofs: session numbers

Every entry to ESTABLISHED is reported once, under a number one above the last. The number lives in
the master, and a rate change starts a new master: as long as none is applied after the first
session, no two reports agree, and the receiver takes each of them for a new session.
-/

namespace Libreac

variable {env : Env} {p : Pacer} {m : Master} {t : MasterTunables} {tx : HeadampTx}

/-! ## The master -/

theorem enterProbing_seq (m : Master) : (enterProbing m).sessionSeq = m.sessionSeq := by
  unfold enterProbing masterForgetBox
  dsimp only
  split_ifs <;> rfl

theorem enterGranting_seq (tx : HeadampTx) (m : Master) (src : Mac) (blk : Option Block) :
    (enterGranting tx m src blk).sessionSeq = m.sessionSeq := by
  obtain ⟨rows, -, -, heq⟩ := enterGranting_eq tx m src blk
  rw [heq]

theorem Heard.seq {m₁ : Master} (h : Heard m m₁) : m₁.sessionSeq = m.sessionSeq := by
  obtain ⟨seen, lc, rfl⟩ := h
  unfold Master.started
  split_ifs
  · exact enterProbing_seq m
  · rfl

theorem Ticked.seq {m₀ : Master} (h : Ticked m m₀) : m₀.sessionSeq = m.sessionSeq := by
  obtain ⟨seen, tick, rfl⟩ := h
  unfold Master.started
  split_ifs
  · exact enterProbing_seq m
  · rfl

theorem SceneMove.session {m' : Master} {emit : MasterEmit} (h : SceneMove tx m emit m') :
    m'.sessionSeq = m.sessionSeq ∧ (m'.state = .established → m.state = .established) := by
  cases h with
  | none | opened | closed | dropped => exact ⟨rfl, id⟩
  | released => exact ⟨enterGranting_seq .., fun hs => by simp [enterGranting_state] at hs⟩
  | bye => exact ⟨enterProbing_seq _, fun hs => by simp [enterProbing_state] at hs⟩

/-- The clock of a window that is not open yet has delivered nothing. -/
theorem Master.Fresh.not_delivered (h : m.Fresh) (room : m.WindowRoom) :
    m.grantDelivered = false := by
  cases hb : m.hasBox with
  | false => simp [Master.grantDelivered, hb]
  | true =>
    have ok := WindowOk.fresh h room.dwell
    exact (grantDelivered_eq_false_iff room.stride room.dwell ok.ended_le room.sweep.length_le
      hb).mpr ok.running

/-- A frame that changes the state leaves ESTABLISHED alone, unless it accepts a delivered grant. -/
theorem RxMove.session {m' : Master} {ev : RxEvent} {src : Mac} {blk : Option Block} {r : Bool}
    (h : RxMove tx m ev src blk m' r) :
    (m'.sessionSeq = m.sessionSeq ∧ (r = true → m'.state ≠ .established) ∧
      (r = false → m'.state = m.state ∧ (m.Fresh → m'.Fresh) ∨
        m.state = .idle ∧ m'.state = .probing)) ∨
    (m.state = .granting ∧ m.grantDelivered = true ∧ m'.state = .established ∧
      m'.sessionSeq = m.sessionSeq + 1 ∧ r = true) := by
  have hheard : ∀ {m₁ : Master}, Heard m m₁ →
      m₁.state = m.state ∧ (m.Fresh → m₁.Fresh) ∨ m.state = .idle ∧ m₁.state = .probing := by
    intro m₁ h₁
    rcases h₁.cases with hp | ⟨-, seen, lc, rfl⟩
    · exact .inr hp
    · exact .inl ⟨rfl, id⟩
  cases h with
  | refused => exact .inl ⟨rfl, nofun, fun _ => .inl ⟨rfl, id⟩⟩
  | stay _ h₁ => exact .inl ⟨h₁.seq, nofun, fun _ => hheard h₁⟩
  | held h₁ =>
    have hstay := hheard h₁
    exact .inl ⟨h₁.seq, nofun, fun _ => hstay⟩
  | latch h₁ | relatch h₁ =>
    exact .inl ⟨(enterGranting_seq ..).trans h₁.seq, fun _ => by simp [enterGranting_state], nofun⟩
  | bye _ h₁ =>
    exact .inl ⟨(enterProbing_seq _).trans h₁.seq, fun _ => by simp [enterProbing_state], nofun⟩
  | accept _ h₁ hs hd =>
    have hseq := h₁.seq
    obtain ⟨seen, lc, rfl⟩ := h₁.of_ne_probing (by rw [hs]; decide)
    exact .inr ⟨hs, hd, rfl, rfl, rfl⟩

/-- A slot enters ESTABLISHED only out of a window that has run. -/
theorem NextMove.session {m' : Master} {s : Slot} (h : NextMove t tx m m' s) (room : m.WindowRoom) :
    (m'.sessionSeq = m.sessionSeq ∧ (m'.state = .established → m.state = .established)) ∨
    (m.state = .granting ∧ ¬ m.Fresh ∧ m'.state = .established ∧
      m'.sessionSeq = m.sessionSeq + 1) := by
  have hstate : ∀ {m₀ : Master}, Ticked m m₀ → m₀.state = .established → m.state = .established := by
    intro m₀ h₀ hs
    obtain ⟨seen, tick, rfl⟩ := h₀.of_ne_probing (by rw [hs]; decide)
    exact hs
  cases h with
  | hunt h₀ hs hc blk desc =>
    rename_i m₀ c
    obtain ⟨hseq, hest⟩ := (sceneAccount_move tx (m := { m₀ with
      cad := c, sceneBlk := blk, fillerDesc := desc }) s.emit (.inl hs)).session
    refine .inl ⟨hseq.trans h₀.seq, fun he => ?_⟩
    exact absurd (hs.symm.trans (hest he)) (by decide)
  | grant h₀ hs | wait h₀ hs => exact .inl ⟨h₀.seq, fun he => by simp [hs] at he⟩
  | delivered h₀ hs hb hw hd =>
    rename_i m₀ c w
    have hseq := h₀.seq
    obtain ⟨seen, tick, rfl⟩ := h₀.of_ne_probing (by rw [hs]; decide)
    refine .inr ⟨hs, ?_, rfl, rfl⟩
    -- One slot does not deliver a whole sweep.
    intro hfresh
    have hlen := (room.sweep.1 hb).length
    unfold grantSweepLen at hlen
    have hsent := (WindowOk.slot (m := { m with
      counter := m.counter + 1, boxSeen := seen, presenceTick := tick }) (.fresh hfresh room.dwell)
      room.stride room.dwell hb room.sweep.length_le (by dsimp only; omega) hw).1 hd
    have hrows := congrArg List.length hsent
    cases hrow : s.grantIdx <;> simp [hrow] at hrows <;> omega
  | boxUnknown h₀ =>
    exact .inl ⟨(enterProbing_seq _).trans h₀.seq, fun he => by simp [enterProbing_state] at he⟩
  | locked h₀ hs hc lc blk desc hlc hleft =>
    rename_i m₀ c
    obtain ⟨hseq, -⟩ := (sceneAccount_move tx (m := { m₀ with
      cad := c, linkCheck := lc, sceneBlk := blk, fillerDesc := desc }) s.emit (.inr hs)).session
    exact .inl ⟨hseq.trans h₀.seq, fun _ => hstate h₀ hs⟩
  | lost h₀ hs =>
    exact .inl ⟨(enterProbing_seq _).trans h₀.seq, fun he => by simp [enterProbing_state] at he⟩

/-- A declaration keeps the state, or opens a window. -/
theorem declareBox_session (tx : HeadampTx) (m : Master) (ports : BoxPorts) :
    (declareBox tx m ports).sessionSeq = m.sessionSeq ∧
      ((declareBox tx m ports).state = m.state ∧ (m.Fresh → (declareBox tx m ports).Fresh) ∨
        (declareBox tx m ports).state = .granting ∧ (declareBox tx m ports).Fresh) := by
  have hset : (masterSetBox tx m ports.inCh ports.outCh ports.headampBase).sessionSeq = m.sessionSeq ∧
      (masterSetBox tx m ports.inCh ports.outCh ports.headampBase).state = m.state ∧
      (m.Fresh → (masterSetBox tx m ports.inCh ports.outCh ports.headampBase).Fresh) := by
    rcases masterSetBox_cases tx m ports.inCh ports.outCh ports.headampBase with h | ⟨a, rows, h, -⟩
    · rw [h]
      exact ⟨rfl, rfl, id⟩
    · rw [h]
      refine ⟨rfl, rfl, ?_⟩
      intro hfresh
      unfold Master.declared Master.Fresh
      dsimp only
      split_ifs
      · exact ⟨rfl, rfl⟩
      · exact hfresh
  unfold declareBox
  dsimp only
  split_ifs
  · exact ⟨(enterGranting_seq ..).trans hset.1,
      .inr ⟨enterGranting_state .., enterGranting_fresh ..⟩⟩
  · exact ⟨hset.1, .inl hset.2⟩

/-! ## The pacer -/

/-- The pacer knows of the session; what it does not know yet is a window just opened over it. -/
structure SessionOk (p : Pacer) : Prop where
  room : p.master.WindowRoom
  known : p.master.state = .established → p.prevState = .established
  ended : p.prevState = .established →
    p.master.state = .established ∨ p.master.state = .granting ∧ p.master.Fresh

/-- The step from `p` to `p'` enters ESTABLISHED. -/
def establishes (p p' : Pacer) : Prop :=
  p.master.state ≠ .established ∧ p'.master.state = .established

/-- What a step may show of sessions: none, or the one it enters, under the next number. -/
def SessionStep (p : Pacer) (reports : List SessionReport) (p' : Pacer) : Prop :=
  (¬ establishes p p' ∧ (∀ s, some s ∉ reports) ∧ p'.master.sessionSeq = p.master.sessionSeq) ∨
  (p.master.state = .granting ∧ p'.master.state = .established ∧
    reports = [some (p'.master.boxMac, p'.master.sessionSeq)] ∧
    p'.master.sessionSeq = p.master.sessionSeq + 1)

/-- No number is given out twice by this step: a rate change finds no session behind it, and the
counter does not wrap. -/
structure SessionSafe (p : Pacer) (i : PacerInput) : Prop where
  rate : i = .slot → p.rateReqPending = true → p.master.sessionSeq = 0
  wrap : p.master.sessionSeq ≠ 0xffffffff

theorem sessionReport_none {m : Master} {src dst : MasterState} (h : dst ≠ .established)
    (s : Mac × UInt32) : some s ∉ sessionReport m src dst := by
  unfold sessionReport
  rw [if_neg h]
  split_ifs <;> simp

/-- The declaration of a frame keeps what is known of the session. -/
theorem SessionOk.declare (ok : SessionOk p) (frame : List UInt8) :
    SessionOk (rxDeclare p frame) ∧ (rxDeclare p frame).master.sessionSeq = p.master.sessionSeq ∧
      ((rxDeclare p frame).master.state = p.master.state ∨
        (rxDeclare p frame).master.state = .granting ∧ (rxDeclare p frame).master.Fresh) := by
  have hroom := (rxDeclare_path {} p frame).1.continues.room ok.room
  obtain ⟨m, box, din, dout, hdecl, hm⟩ := rxDeclare_eq p frame
  have hsession : m.sessionSeq = p.master.sessionSeq ∧
      (m.state = p.master.state ∧ (p.master.Fresh → m.Fresh) ∨ m.state = .granting ∧ m.Fresh) := by
    rcases hm with rfl | ⟨ports, -, -, rfl, -⟩
    · exact ⟨rfl, .inl ⟨rfl, id⟩⟩
    · exact declareBox_session p.headamp p.master ports
  rw [hdecl] at hroom ⊢
  dsimp only at hroom ⊢
  obtain ⟨hseq, hstate⟩ := hsession
  refine ⟨⟨hroom, ?_, ?_⟩, hseq, hstate.imp_left And.left⟩
  · intro hest
    rcases hstate with ⟨hsame, -⟩ | ⟨hg, -⟩
    · exact ok.known (hsame.symm.trans hest)
    · exact absurd (hg.symm.trans hest) (by decide)
  · intro hprev
    rcases hstate with ⟨hsame, hfresh⟩ | hopened
    · rcases ok.ended hprev with hest | ⟨hg, hf⟩
      · exact .inl (hsame.trans hest)
      · exact .inr ⟨hsame.trans hg, hfresh hf⟩
    · exact .inr hopened

theorem SessionOk.taken {ev : RxEvent} {src : Mac} {blk : Option Block}
    {r : Pacer × List SessionReport} {q : Pacer} (ok : SessionOk p) (h : Taken p ev src blk r)
    (hseq : p.master.sessionSeq = q.master.sessionSeq)
    (hstate : p.master.state = q.master.state ∨
      p.master.state = .granting ∧ p.master.Fresh) : SessionOk r.1 ∧ SessionStep q r.2 r.1 := by
  have hroom := (h.path {}).continues.room ok.room
  have hmove := (masterRx_move p.headamp p.master ev src blk).session
  obtain ⟨_, _, _, _, _, _, _, _, rfl, -⟩ := h
  generalize masterRx p.headamp p.master ev src blk = r at *
  obtain ⟨m', changed⟩ := r
  dsimp only at *
  rcases hmove with ⟨hseq', hchanged, hsame⟩ | ⟨hg, hdel, hest, hseq', rfl⟩
  · cases changed with
    | true =>
      have hne := hchanged rfl
      refine ⟨⟨hroom, fun he => absurd he hne, fun he => absurd he hne⟩, .inl ⟨?_, ?_, ?_⟩⟩
      · rintro ⟨-, he⟩
        exact hne he
      · exact sessionReport_none hne
      · exact hseq'.trans hseq
    | false =>
      have hm' := hsame rfl
      refine ⟨⟨hroom, ?_, ?_⟩, .inl ⟨?_, by simp, hseq'.trans hseq⟩⟩
      · intro he
        rcases hm' with ⟨hs, -⟩ | ⟨-, hs⟩
        · exact ok.known (hs.symm.trans he)
        · exact absurd (hs.symm.trans he) (by decide)
      · intro hprev
        rcases hm' with ⟨hs, hfresh⟩ | ⟨hidle, -⟩
        · rcases ok.ended hprev with he | ⟨hg, hf⟩
          · exact .inl (hs.trans he)
          · exact .inr ⟨hs.trans hg, hfresh hf⟩
        · rcases ok.ended hprev with he | ⟨hg, -⟩
          · exact absurd (hidle.symm.trans he) (by decide)
          · exact absurd (hidle.symm.trans hg) (by decide)
      · rintro ⟨hq, he⟩
        have hp : p.master.state = .established := by
          rcases hm' with ⟨hs, -⟩ | ⟨-, hs⟩
          · exact hs.symm.trans he
          · exact absurd (hs.symm.trans he) (by decide)
        rcases hstate with hs | ⟨hg, -⟩
        · exact hq (hs.symm.trans hp)
        · exact absurd (hg.symm.trans hp) (by decide)
  · -- A window just opened over a session has delivered nothing, so this one is a new session.
    have hwas : q.master.state = .granting := by
      rcases hstate with hs | ⟨-, hfresh⟩
      · exact hs.symm.trans hg
      · rw [hfresh.not_delivered ok.room] at hdel
        cases hdel
    refine ⟨⟨hroom, fun _ => hest, fun _ => .inl hest⟩, .inr ⟨hwas, hest, ?_, ?_⟩⟩
    · simp only [if_true, sessionReport, hest]
      rfl
    · rw [← hseq]
      exact hseq'

/-- A frame, with what it may have declared. -/
theorem SessionOk.frame (ok : SessionOk p) (env : Env) (bytes : List UInt8) :
    SessionOk (rxIngest env p bytes).1 ∧
      SessionStep p (rxIngest env p bytes).2 (rxIngest env p bytes).1 := by
  obtain ⟨ident, frag, complete, hpass⟩ := rxIdentityPass_eq p (cleanFrame bytes)
  have ok₀ : SessionOk (rxIdentityPass p (cleanFrame bytes)) := by
    rw [hpass]
    exact ⟨⟨ok.room.stride, ok.room.dwell, ok.room.sweep⟩, ok.known, ok.ended⟩
  have hseq₀ : (rxIdentityPass p (cleanFrame bytes)).master.sessionSeq = p.master.sessionSeq := by
    rw [hpass]
    rfl
  have hstate₀ : (rxIdentityPass p (cleanFrame bytes)).master.state = p.master.state := by
    rw [hpass]
    rfl
  rcases rxIngest_cases env p bytes with ⟨heq, -⟩ | ⟨parsed, ev, -, -, htaken⟩
  · rw [heq]
    refine ⟨ok₀, .inl ⟨?_, by simp, hseq₀⟩⟩
    rintro ⟨hne, he⟩
    exact hne (hstate₀.symm.trans he)
  · obtain ⟨ok₁, hseq₁, hstate₁⟩ := ok₀.declare (cleanFrame bytes)
    rw [hstate₀] at hstate₁
    exact ok₁.taken htaken (hseq₁.trans hseq₀) hstate₁

theorem SessionOk.masterSlot (ok : SessionOk p) (env : Env) :
    SessionOk (masterSlot env p).1 ∧
      SessionStep p (masterSlot env p).2.1 (masterSlot env p).1 := by
  have hroom := (masterSlot_path env p).continues.room ok.room
  have hmove := (masterNext_move env.tunables p.headamp p.master).session ok.room
  obtain ⟨_, _, _, _, _, _, _, _, _, _, heq, -⟩ := masterSlot_eq env p
  rw [heq] at hroom ⊢
  generalize masterNext env.tunables p.headamp p.master = r at *
  obtain ⟨m', s⟩ := r
  dsimp only at *
  refine ⟨⟨hroom, id, .inl⟩, ?_⟩
  rcases hmove with ⟨hseq, hest⟩ | ⟨hg, hfresh, hest, hseq⟩
  · refine .inl ⟨?_, ?_, hseq⟩
    · rintro ⟨hne, he⟩
      exact hne (hest he)
    · intro s
      split_ifs with hnote
      · refine sessionReport_none ?_ s
        intro he
        exact hnote (he.trans (ok.known (hest he)).symm)
      · simp
  · have hprev : p.prevState ≠ .established := by
      intro hprev
      rcases ok.ended hprev with he | ⟨-, hf⟩
      · exact absurd (hg.symm.trans he) (by decide)
      · exact hfresh hf
    refine .inr ⟨hg, hest, ?_, hseq⟩
    rw [if_pos (by rw [hest]; exact hprev.symm)]
    simp only [sessionReport, hest, if_true]
    rfl

/-- A rate change ends the session there was, and starts a master that has had none. -/
theorem applyRate_session (env : Env) (p : Pacer) {hz : ℤ} (h : hz.tdiv samplesPerPkt ≤ 596522) :
    SessionOk (applyRate env p hz).1 ∧ (applyRate env p hz).1.master.state = .idle ∧
      (applyRate env p hz).1.master.sessionSeq = 0 ∧ ∀ s, some s ∉ (applyRate env p hz).2 := by
  obtain ⟨cfg, hm⟩ := applyRate_master env p hz
  obtain ⟨hs, -, hgeo, hsweep, hseq, -⟩ := masterInit_rests env.tunables env.placeholder p.src cfg
    p.headamp (hz.tdiv samplesPerPkt)
  rw [← hm] at hs hgeo hsweep hseq
  have hwin := geometry_window env.tunables h
  rw [← hgeo] at hwin
  refine ⟨⟨⟨hwin.1, hwin.2, hsweep⟩, ?_, nofun⟩, hs, hseq, ?_⟩
  · intro he
    exact absurd (hs.symm.trans he) (by decide)
  · unfold applyRate
    dsimp only
    split_ifs <;> simp

theorem SessionOk.step (ok : SessionOk p) (rates : RatesFit p) (env : Env) (i : PacerInput)
    (hrate : i = .slot → p.rateReqPending = true → p.master.sessionSeq = 0) :
    SessionOk (pacerStep env p i).1 ∧
      SessionStep p (pacerStep env p i).2.reports (pacerStep env p i).1 := by
  have hquiet : ∀ p' : Pacer, p'.master = p.master → SessionStep p [] p' := by
    intro p' hm
    refine .inl ⟨?_, by simp, by rw [hm]⟩
    rintro ⟨hne, he⟩
    rw [hm] at he
    exact hne he
  cases i with
  | frame bytes => exact ok.frame env bytes
  | slot =>
    simp only [pacerStep, pacerSlot, rateDrain]
    by_cases hpend : p.rateReqPending = true
    · rw [if_pos hpend]
      obtain ⟨ok₀, hidle, hseq, hreps⟩ := applyRate_session env
        { p with rateReqSeen := p.rateReqSeq } rates.fps
      generalize applyRate env { p with rateReqSeen := p.rateReqSeq } p.rateReqHz = r at *
      obtain ⟨p₀, r₁⟩ := r
      dsimp only at *
      obtain ⟨ok', hstep⟩ := ok₀.masterSlot env
      refine ⟨ok', ?_⟩
      have hzero := hrate rfl hpend
      rcases hstep with ⟨hnone, hreps', hseq'⟩ | ⟨hg, -⟩
      · refine .inl ⟨?_, ?_, ?_⟩
        · rintro ⟨-, he⟩
          exact hnone ⟨by rw [hidle]; decide, he⟩
        · intro s hs
          rcases List.mem_append.mp hs with hs | hs
          · exact hreps s hs
          · exact hreps' s hs
        · rw [hseq', hseq, hzero]
      · exact absurd (hidle.symm.trans hg) (by decide)
    · rw [if_neg hpend]
      exact ok.masterSlot env
  | requestRate r => exact ⟨⟨ok.room, ok.known, ok.ended⟩, hquiet _ rfl⟩
  | requestReestablish => exact ⟨⟨ok.room, ok.known, ok.ended⟩, hquiet _ rfl⟩
  | headampSet ch param value =>
    simp only [pacerStep, headampSet]
    split_ifs
    · exact ⟨ok, hquiet _ rfl⟩
    · exact ⟨⟨ok.room, ok.known, ok.ended⟩, hquiet _ rfl⟩

/-! ## Runs -/

/-- The sessions among these reports. -/
def sessionsOf (reports : List SessionReport) : List (Mac × UInt32) := reports.filterMap id

theorem sessionsOf_append (rs rs' : List SessionReport) :
    sessionsOf (rs ++ rs') = sessionsOf rs ++ sessionsOf rs' := List.filterMap_append

theorem sessionsOf_eq_nil {rs : List SessionReport} (h : ∀ s, some s ∉ rs) : sessionsOf rs = [] := by
  unfold sessionsOf
  rw [List.filterMap_eq_nil_iff]
  intro r hr
  cases r with
  | none => rfl
  | some s => exact absurd hr (h s)

theorem sessions_concat (env : Env) (log : List PacerEvent) (p : Pacer) (i : PacerInput) :
    sessionsOf (reportsOf (log ++ [(pacerMachine env).event p i]))
      = sessionsOf (reportsOf log) ++ sessionsOf (pacerStep env p i).2.reports := by
  rw [reportsOf_append, sessionsOf_append]
  simp [reportsOf, pacerMachine]

/-- The invariant of a run: the numbers reported so far rise up to the master's own. -/
structure SessionInv (log : List PacerEvent) (p : Pacer) : Prop where
  ok : SessionOk p
  rates : RatesFit p
  pos : ∀ s ∈ sessionsOf (reportsOf log), 0 < s.2.toNat
  le : ∀ s ∈ sessionsOf (reportsOf log), s.2.toNat ≤ p.master.sessionSeq.toNat
  rising : (sessionsOf (reportsOf log)).Pairwise fun s s' => s.2.toNat < s'.2.toNat

theorem SessionInv.step {log : List PacerEvent} (inv : SessionInv log p) (env : Env) (i : PacerInput)
    (safe : SessionSafe p i) :
    SessionInv (log ++ [(pacerMachine env).event p i]) (pacerStep env p i).1 := by
  obtain ⟨ok', hstep⟩ := inv.ok.step inv.rates env i safe.rate
  have rates' := inv.rates.step env i
  have hreps := sessions_concat env log p i
  rcases hstep with ⟨-, hnone, hseq⟩ | ⟨-, -, hrep, hseq⟩
  · rw [sessionsOf_eq_nil hnone, List.append_nil] at hreps
    refine ⟨ok', rates', ?_, ?_, ?_⟩
    · rw [hreps]
      exact inv.pos
    · rw [hreps, hseq]
      exact inv.le
    · rw [hreps]
      exact inv.rising
  · have hnext : (pacerStep env p i).1.master.sessionSeq.toNat = p.master.sessionSeq.toNat + 1 := by
      have hwrap := safe.wrap
      rw [hseq, UInt32.toNat_add]
      have hlt : p.master.sessionSeq.toNat ≠ 0xffffffff := fun h => hwrap (UInt32.toNat_inj.mp h)
      have hbound := p.master.sessionSeq.toNat_lt
      simp only [UInt32.reduceToNat]
      omega
    rw [hrep] at hreps
    refine ⟨ok', rates', ?_, ?_, ?_⟩
    · intro s hs
      rw [hreps] at hs
      rcases List.mem_append.mp hs with hs | hs
      · exact inv.pos s hs
      · obtain rfl := List.mem_singleton.mp hs
        dsimp only
        omega
    · intro s hs
      rw [hreps] at hs
      rcases List.mem_append.mp hs with hs | hs
      · have hle := inv.le s hs
        omega
      · obtain rfl := List.mem_singleton.mp hs
        exact le_refl _
    · rw [hreps, List.pairwise_append]
      refine ⟨inv.rising, List.pairwise_singleton _ _, ?_⟩
      intro s hs s' hs'
      obtain rfl := List.mem_singleton.mp hs'
      have hle := inv.le s hs
      dsimp only
      omega

theorem sessionInv_open (env : Env) (cfg : PacerCfg) : SessionInv [] (pacerOpen env cfg) := by
  obtain ⟨hs, -, hgeo, hsweep, -⟩ := masterInit_rests env.tunables env.placeholder cfg.srcMac
    (some cfg.consoleCfg) (headampOpen cfg.fps cfg.headamps) cfg.fps
  have hwin := geometry_window env.tunables cfg.fps_le
  rw [← hgeo] at hwin
  refine ⟨⟨⟨hwin.1, hwin.2, hsweep⟩, ?_, nofun⟩, ratesFit_open env cfg, by simp [reportsOf, sessionsOf],
    by simp [reportsOf, sessionsOf], by simp [reportsOf, sessionsOf]⟩
  intro he
  exact absurd (hs.symm.trans he) (by decide)

/-! ## The receiver -/

/-- What reaches the receiver: the reports of the pacer and the frames off the wire. -/
inductive RxInput where
  | report (r : SessionReport)
  | frame (bytes : List UInt8)

def rxTakes (rx : Rx) : RxInput → Rx
  | .report (some (mac, session)) => rxPeerReset rx mac session
  | .report none => rxSessionEnd rx
  | .frame bytes => (rxLoopBody rx bytes).1

def RxInput.report? : RxInput → Option SessionReport
  | .report r => some r
  | .frame _ => none

theorem rxLoopBody_session (rx : Rx) (bytes : List UInt8) :
    (rxLoopBody rx bytes).1.peerSession = rx.peerSession ∧
      (rxLoopBody rx bytes).1.peerEpoch = rx.peerEpoch := by
  have hgate : ∀ rx : Rx, ∀ frame, (rxCounterGate (rxEpochCheck rx) frame).1.peerSession
      = rx.peerSession ∧ (rxCounterGate (rxEpochCheck rx) frame).1.peerEpoch = rx.peerEpoch := by
    intro rx frame
    unfold rxCounterGate rxFollow rxEpochCheck
    dsimp only
    split_ifs <;> exact ⟨rfl, rfl⟩
  have haccept : ∀ frame, (gateAccepts rx frame).1.peerSession = rx.peerSession ∧
      (gateAccepts rx frame).1.peerEpoch = rx.peerEpoch := by
    intro frame
    unfold gateAccepts
    dsimp only
    split
    · split_ifs <;> exact ⟨rfl, rfl⟩
    · split_ifs <;> exact ⟨rfl, rfl⟩
  unfold rxLoopBody
  by_cases hreac : frameIsReac bytes = true
  · rw [if_neg (by simp [hreac])]
    have hacc := haccept (cleanFrame bytes)
    dsimp only
    split
    · rename_i rx' heq
      rw [heq] at hacc
      exact hacc
    · rename_i rx' heq
      rw [heq] at hacc
      by_cases hdup : rx'.prevFrame = some (cleanFrame bytes)
      · rw [if_pos hdup]
        exact hacc
      · rw [if_neg hdup]
        split_ifs
        · exact ⟨(hgate _ _).1.trans hacc.1, (hgate _ _).2.trans hacc.2⟩
        · exact ⟨(hgate _ _).1.trans hacc.1, (hgate _ _).2.trans hacc.2⟩
  · rw [if_pos (by simp [hreac])]
    exact ⟨rfl, rfl⟩

theorem epoch_succ (epoch : UInt32) (n : ℕ) :
    epoch + 1 + UInt32.ofNat n = epoch + UInt32.ofNat (n + 1) := by
  rw [Nat.add_comm n 1, UInt32.ofNat_add, UInt32.add_assoc]
  rfl

/-- Rising numbers above the one the receiver holds all bump the epoch. -/
theorem rxTakes_epoch (hs : List RxInput) (rx : Rx)
    (habove : ∀ s ∈ sessionsOf (hs.filterMap RxInput.report?), rx.peerSession.toNat < s.2.toNat)
    (hrising : (sessionsOf (hs.filterMap RxInput.report?)).Pairwise
      fun s s' => s.2.toNat < s'.2.toNat) :
    (hs.foldl rxTakes rx).peerEpoch
      = rx.peerEpoch + UInt32.ofNat (hs.filterMap RxInput.report?).length := by
  have hcons : ∀ r (hs : List RxInput), (.report r :: hs : List RxInput).filterMap RxInput.report?
      = r :: hs.filterMap RxInput.report? := fun _ _ => rfl
  induction hs generalizing rx with
  | nil => simp
  | cons i hs ih =>
    rw [List.foldl_cons]
    cases i with
    | frame bytes =>
      obtain ⟨hsession, hepoch⟩ := rxLoopBody_session rx bytes
      have hrest := ih (rxTakes rx (.frame bytes)) (by rw [rxTakes, hsession]; exact habove) hrising
      rwa [rxTakes, hepoch] at hrest
    | report r =>
      rw [hcons] at habove hrising ⊢
      rw [List.length_cons, ← epoch_succ]
      cases r with
      | none => exact ih (rxSessionEnd rx) habove hrising
      | some r =>
        obtain ⟨mac, session⟩ := r
        have hsessions : sessionsOf (some (mac, session) :: hs.filterMap RxInput.report?)
            = (mac, session) :: sessionsOf (hs.filterMap RxInput.report?) := rfl
        rw [hsessions, List.pairwise_cons] at hrising
        have hnew : rx.peerSession ≠ session := by
          have hlt := habove (mac, session) (by rw [hsessions]; simp)
          rintro rfl
          exact absurd hlt (lt_irrefl _)
        have hreset : rxTakes rx (.report (some (mac, session))) = { rx with
            peerSession := session, upSrc := mac, upSrcLocked := true
            peerEpoch := rx.peerEpoch + 1 } := by
          simp [rxTakes, rxPeerReset, hnew]
        rw [hreset, ih _ hrising.1 hrising.2]

theorem rxPeerReset_epoch (rx : Rx) (mac : Mac) (session : UInt32) :
    (rxPeerReset rx mac session).peerEpoch = rx.peerEpoch ↔
      rx.upSrcLocked = true ∧ rx.upSrc = mac ∧ rx.peerSession = session := by
  unfold rxPeerReset
  split_ifs with h
  · exact iff_of_true rfl h
  · refine iff_of_false ?_ h
    intro heq
    have hone : rx.peerEpoch + 1 = rx.peerEpoch + 0 := heq.trans (UInt32.add_zero _).symm
    exact absurd ((UInt32.add_right_inj _).mp hone) (by decide)

/-- As long as no rate change comes behind a session, every entry to ESTABLISHED is reported once,
no two under the same box and number, and the receiver takes each for a new session. -/
theorem sessions_distinct (env : Env) (cfg : PacerCfg) (is : List PacerInput)
    (hsafe : ∀ log e, (pacerMachine env).StepOf (pacerOpen env cfg) is log e →
      SessionSafe e.pre e.input) :
    let reports := reportsOf ((pacerMachine env).trace (pacerOpen env cfg) is)
    (∀ log e, (pacerMachine env).StepOf (pacerOpen env cfg) is log e →
      (establishes e.pre e.post →
        e.out.reports = [some (e.post.master.boxMac, e.post.master.sessionSeq)]) ∧
      (¬ establishes e.pre e.post → ∀ s, some s ∉ e.out.reports)) ∧
    (sessionsOf reports).Nodup ∧
    (∀ (rx : Rx) (hs : List RxInput), rx.peerSession = 0 →
      hs.filterMap RxInput.report? = reports →
      (hs.foldl rxTakes rx).peerEpoch = rx.peerEpoch + UInt32.ofNat reports.length) ∧
    (∀ (rx : Rx) (mac : Mac) (session : UInt32),
      (rxPeerReset rx mac session).peerEpoch = rx.peerEpoch ↔
        rx.upSrcLocked = true ∧ rx.upSrc = mac ∧ rx.peerSession = session) := by
  have inv := (pacerMachine env).trace_invariant (H := SessionInv)
    (L := fun _ e => SessionSafe e.pre e.input) (sessionInv_open env cfg)
    (fun log p i inv safe => inv.step env i safe) is hsafe
  refine ⟨?_, ?_, ?_, rxPeerReset_epoch⟩
  · intro log e he
    obtain ⟨inv', heq⟩ := (pacerMachine env).trace_invariant_at (H := SessionInv)
      (L := fun _ e => SessionSafe e.pre e.input) (sessionInv_open env cfg)
      (fun log p i inv safe => inv.step env i safe) hsafe he
    have hstep := (inv'.ok.step inv'.rates env e.input (hsafe log e he).rate).2
    have hpost : e.post = (pacerStep env e.pre e.input).1 := by rw [heq]; rfl
    have hout : e.out = (pacerStep env e.pre e.input).2 := by rw [heq]; rfl
    rw [hpost, hout]
    rcases hstep with ⟨hnot, hnone, -⟩ | ⟨hg, hest, hrep, -⟩
    · exact ⟨fun h => absurd h hnot, fun _ => hnone⟩
    · exact ⟨fun _ => hrep, fun h => absurd ⟨by rw [hg]; decide, hest⟩ h⟩
  · refine inv.rising.imp ?_
    rintro s s' hlt rfl
    exact absurd hlt (lt_irrefl _)
  · intro rx hs hrx hhs
    have hpos := inv.pos
    have hrising := inv.rising
    rw [← hhs] at hpos hrising ⊢
    refine rxTakes_epoch hs rx ?_ hrising
    rw [hrx]
    exact hpos

/-- Without a request the master's number counts the sessions reported. -/
structure SessionCount (log : List PacerEvent) (p : Pacer) : Prop where
  ok : SessionOk p
  rates : RatesFit p
  pending : p.rateReqPending = false
  seq : p.master.sessionSeq = UInt32.ofNat (sessionsOf (reportsOf log)).length

theorem SessionCount.step {log : List PacerEvent} (inv : SessionCount log p) (env : Env)
    {i : PacerInput} (hi : i.asksRate = false) :
    SessionCount (log ++ [(pacerMachine env).event p i]) (pacerStep env p i).1 := by
  obtain ⟨ok', hstep⟩ := inv.ok.step inv.rates env i (fun _ h => by simp [inv.pending] at h)
  refine ⟨ok', inv.rates.step env i, (pacerStep_keeps env p hi inv.pending).pending.trans inv.pending, ?_⟩
  rw [sessions_concat]
  rcases hstep with ⟨-, hnone, hseq⟩ | ⟨-, -, hrep, hseq⟩
  · rw [sessionsOf_eq_nil hnone, List.append_nil, hseq]
    exact inv.seq
  · rw [hrep, hseq, inv.seq, List.length_append, UInt32.ofNat_add]
    rfl

/-- A run that reports one session is safe. -/
theorem safe_of_one_session {is : List PacerInput} (hquiet : ∀ i ∈ is, i.asksRate = false)
    (hone : (sessionsOf (reportsOf ((pacerMachine env).trace p is))).length ≤ 1)
    (h₀ : SessionCount [] p) {log : List PacerEvent} {e : PacerEvent}
    (he : (pacerMachine env).StepOf p is log e) : SessionSafe e.pre e.input := by
  obtain ⟨inv, -⟩ := (pacerMachine env).trace_invariant_at (H := SessionCount)
    (L := fun _ e => e.input.asksRate = false) h₀ (fun log p i inv hi => inv.step env hi)
    (fun log e he => hquiet _ (Reactive.Machine.StepOf.input_mem _ he)) he
  obtain ⟨post, he⟩ := he
  rw [he, reportsOf_append, sessionsOf_append, List.length_append] at hone
  refine ⟨fun _ hpend => ?_, ?_⟩
  · rw [inv.pending] at hpend
    cases hpend
  · rw [inv.seq]
    generalize (sessionsOf (reportsOf log)).length = n at hone
    obtain rfl | rfl : n = 0 ∨ n = 1 := by omega
    · decide
    · decide

/-- A desk left alone with its box has one session. -/
theorem sessions_distinct_once : ∃ is : List PacerInput,
    sessionsOf (reportsOf ((pacerMachine deskEnv).trace (pacerOpen deskEnv deskCfg) is))
      = [(stageBox, 1)] ∧
    (sessionsOf (reportsOf ((pacerMachine deskEnv).trace (pacerOpen deskEnv deskCfg) is))).Nodup := by
  obtain ⟨n, k, -, -, -, -, -, -, -, -, -, hreps⟩ :=
    (rested_open deskEnv deskCfg (by decide)).establishes stageBox_declares deskEnv
  have hquiet : ∀ i ∈ announceRun (configFrame stageBox 0 4 2) n k, i.asksRate = false := by
    intro i hi
    simp only [announceRun, List.mem_append, List.mem_replicate, List.mem_cons] at hi
    rcases hi with ⟨-, rfl⟩ | rfl | ⟨-, rfl⟩
    · rfl
    · rfl
    · rfl
  refine ⟨_, by rw [hreps]; rfl, ?_⟩
  refine (sessions_distinct deskEnv deskCfg _ ?_).2.1
  intro log e he
  refine safe_of_one_session hquiet (by rw [hreps]; decide) ?_ he
  exact ⟨(sessionInv_open deskEnv deskCfg).ok, ratesFit_open deskEnv deskCfg, rfl, by decide +kernel⟩

theorem rested_applyRate (env : Env) (hcmds : p.headampCmds = []) (hpend : p.rateReqPending = false)
    (r : Rate) : Rested (applyRate env p r.hz).1 := by
  have hfps : 500 ≤ r.hz.tdiv samplesPerPkt := by cases r <;> decide
  obtain ⟨cfg, hm⟩ := applyRate_master env p r.hz
  exact rested_of_init env.tunables env.placeholder p.src cfg p.headamp hfps r.hour_fits
    ⟨hpend, hcmds⟩ rfl hm

/-- The slot that applies a rate is the first slot of a pacer at rest. -/
theorem rate_slot (h : Idles p) (env : Env) (r : Rate) : ∃ p₀ r₁, Rested p₀ ∧ p₀.src = p.src ∧
    (∀ s, some s ∉ r₁) ∧
    (pacerStep env (requestRate p r) .slot).1 = (pacerStep env p₀ .slot).1 ∧
    (pacerStep env (requestRate p r) .slot).2.reports
      = r₁ ++ (pacerStep env p₀ .slot).2.reports := by
  have hpend : (requestRate p r).rateReqPending = true := by
    have hsame := h.pending
    simp only [Pacer.rateReqPending, bne_eq_false_iff_eq] at hsame
    simp only [Pacer.rateReqPending, requestRate, bne_iff_ne, ne_eq, ← hsame]
    intro heq
    have hone : p.rateReqSeq + 1 = p.rateReqSeq + 0 := heq.trans (UInt32.add_zero _).symm
    exact absurd ((UInt32.add_right_inj _).mp hone) (by decide)
  obtain ⟨q, hq⟩ : ∃ q, q = { requestRate p r with
    rateReqSeen := (requestRate p r).rateReqSeq } := ⟨_, rfl⟩
  have hdrain : rateDrain env (requestRate p r) = applyRate env q r.hz := by
    rw [rateDrain, if_pos hpend, hq]
    rfl
  have hrest : Rested (applyRate env q r.hz).1 := by
    refine rested_applyRate env ?_ ?_ r
    · rw [hq]
      exact h.cmds
    · rw [hq]
      simp [Pacer.rateReqPending]
  refine ⟨(applyRate env q r.hz).1, (applyRate env q r.hz).2, hrest, ?_,
    (applyRate_session env q r.hour_fits).2.2.2, ?_, ?_⟩
  · rw [applyRate, hq]
    rfl
  · rw [hrest.idles.slot_eq]
    simp only [pacerStep, pacerSlot, hdrain]
  · rw [hrest.idles.slot_eq]
    simp only [pacerStep, pacerSlot, hdrain]

/-- The same box, established on both sides of a rate change, is reported twice under number 1. -/
theorem sessions_collide : ∃ is : List PacerInput,
    let sessions :=
      sessionsOf (reportsOf ((pacerMachine deskEnv).trace (pacerOpen deskEnv deskCfg) is))
    sessions = [(stageBox, 1), (stageBox, 1)] ∧ ¬ sessions.Nodup := by
  obtain ⟨n, k, -, -, hidles, -, -, -, -, -, hsrc, hreps⟩ :=
    (rested_open deskEnv deskCfg (by decide)).establishes stageBox_declares deskEnv
  generalize announceRun (configFrame stageBox 0 4 2) n k = is at *
  generalize hp : (pacerMachine deskEnv).run (pacerOpen deskEnv deskCfg) is = p at *
  obtain ⟨p₀, r₁, hrest, hsrc₀, hnone, hstep, hrep⟩ := rate_slot hidles deskEnv .r96000
  obtain ⟨n', k', hn', -, -, -, -, -, -, -, -, hreps'⟩ := hrest.establishes
    (by rw [hsrc₀, hsrc]; exact stageBox_declares) deskEnv
  obtain ⟨n', rfl⟩ : ∃ n'', n' = n'' + 1 := ⟨n' - 1, by omega⟩
  rw [announceRun, List.replicate_succ, List.cons_append] at hreps'
  generalize List.replicate n' PacerInput.slot ++
    .frame (configFrame stageBox 0 4 2) :: List.replicate k' .slot = js at *
  refine ⟨is ++ .requestRate .r96000 :: .slot :: js, ?_⟩
  have hrest' : reportsOf ((pacerMachine deskEnv).trace p (.requestRate .r96000 :: .slot :: js))
      = r₁ ++ [some (stageBox, 1)] := by
    have hreq : pacerStep deskEnv p (.requestRate .r96000) = (requestRate p .r96000, {}) := rfl
    rw [reportsOf_trace_cons, hreq, List.nil_append, reportsOf_trace_cons, hstep, hrep,
      List.append_assoc, ← reportsOf_trace_cons, hreps']
  dsimp only
  rw [Reactive.Machine.trace_append, reportsOf_append, hp, hrest', hreps, sessionsOf_append,
    sessionsOf_append, sessionsOf_eq_nil hnone]
  exact ⟨rfl, by decide⟩

end Libreac
