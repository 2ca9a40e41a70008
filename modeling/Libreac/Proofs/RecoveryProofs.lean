import Libreac.Proofs.CourtshipProofs
import Libreac.Proofs.DeskProofs
import Libreac.Proofs.HandshakeProofs

/-!
# Proofs: a segment enrols its box, and recovers

In every run of a segment the desk and the box agree (`segment_enrols`), and whatever has happened on it they can
still be enrolled: a rate request makes the desk start over, a link that goes down and up the box, and from there
the two follow the script of `reac_fsm.c` and `reac_master.c` to its end. That run is put together from what
either party does on its own while it hears nothing, and from the three frames that matter: the desk's first scene
frame, the box's declaration and the desk's first grant.
-/

namespace Libreac

open Reactive (Delivered Duplex Event Guarded Leads Side Station duplex duplex_rely_guarantee mem_transmits)

/-! ## The box on its own -/

section Box

variable {u : BoxUnit} {s : Slave} {fsm : ReacFsm} {desk : Mac}

/-- A pass of the box with nothing to read. -/
def boxIdle : SlaveInput × Planes := ({ ev := .idle }, none)

/-- What a decision puts on the wire does not touch the state machine of a box towards a desk. -/
theorem slaveEmit_fsm (u : BoxUnit) (s : Slave) (d : SlaveDecision) (i : SlaveInput) :
    (slaveEmit u.cfg s d i).1.fsm = s.fsm := by
  unfold slaveEmit emitDecision emitDesk
  dsimp only
  rw [if_neg (by rintro ⟨h, -⟩; cases h)]
  cases d.emit with
  | coldconnect =>
    dsimp only
    split_ifs <;> rfl
  | none | floodFiller | upstreamAudio | heartbeat => rfl

theorem boxIdle_fsm (u : BoxUnit) (s : Slave) :
    ((boxStation u).machine.step s boxIdle).1.fsm = (reacFsmStep s.fsm .tick).1 :=
  slaveEmit_fsm u _ _ { ev := .idle }

theorem boxIdles_fsm (u : BoxUnit) (s : Slave) (n : ℕ) :
    ((boxStation u).machine.run s (List.replicate n boxIdle)).fsm =
      fsmMachine.run s.fsm (List.replicate n .tick) := by
  induction n generalizing s with
  | zero => rfl
  | succ n ih =>
    rw [List.replicate_succ, List.replicate_succ, Reactive.Machine.run_cons, Reactive.Machine.run_cons, ih,
      boxIdle_fsm]
    rfl

theorem counterLock_fsm (s : Slave) (p : CtrlParsed) : ∃ c, (counterLock s p).fsm = { s.fsm with counter := c } := by
  unfold counterLock
  by_cases h : s.fsm.haveMaster = true ∧ p.src = s.fsm.masterMac
  · rw [if_pos h]
    exact ⟨_, rfl⟩
  · rw [if_neg h]
    exact ⟨s.fsm.counter, rfl⟩

theorem slaveHeadampRx_fsm (cfg : SlaveCfg) (s : Slave) (p : CtrlParsed) : (slaveHeadampRx cfg s p).fsm = s.fsm := by
  unfold slaveHeadampRx
  dsimp only
  split_ifs <;> rfl

/-- A frame of another station reaches the state machine; only the counter may be set after it. -/
theorem boxHears_fsm (u : BoxUnit) (s : Slave) {bytes : List UInt8} (hreac : frameIsReac bytes = true)
    (hsrc : (ctrlParse bytes).src ≠ u.src) :
    ∃ c, ((boxStation u).machine.step s ({ ev := .frame bytes }, none)).1.fsm =
      { (reacFsmStep s.fsm (.rx (ctrlParse bytes))).1 with counter := c } := by
  have hown : (ctrlParse bytes).src ≠ u.cfg.src := hsrc
  have hhears : ∀ s : Slave, bmHears u.cfg s (ctrlParse bytes) 0 = s := by
    intro s
    simp [bmHears, BoxUnit.cfg]
  obtain ⟨s₁, hs₁, heq⟩ : ∃ s₁ : Slave, s₁.fsm = s.fsm ∧ slaveLoop u.cfg s { ev := .frame bytes } =
      slaveEmit u.cfg (counterLock (slaveStep s₁ (.rx (ctrlParse bytes))).1 (ctrlParse bytes))
        (slaveStep s₁ (.rx (ctrlParse bytes))).2 { ev := .frame bytes } := by
    simp only [slaveLoop, slaveRx, hreac, hown, hhears, Bool.not_true, Bool.false_eq_true, if_false]
    by_cases hamp : (ctrlParse bytes).kind = .headamp ∧ headampRecordVerify bytes = true
    · exact ⟨_, slaveHeadampRx_fsm u.cfg s _, by rw [if_pos hamp]⟩
    · exact ⟨s, rfl, by rw [if_neg hamp]⟩
  obtain ⟨c, hc⟩ := counterLock_fsm (slaveStep s₁ (.rx (ctrlParse bytes))).1 (ctrlParse bytes)
  refine ⟨c, ?_⟩
  change (slaveLoop u.cfg s { ev := .frame bytes }).1.fsm = _
  rw [heq, slaveEmit_fsm, hc, slaveStep, hs₁]

/-- The link of the box is bounced, whatever it was. -/
def bounce : List (SlaveInput × Planes) := [true, false, true].map fun up => ({ ev := .phy up }, none)

/-- A box that floods and has heard nobody yet. -/
structure Floods (p : ℤ) (fsm : ReacFsm) : Prop where
  state : fsm.state = .floodAnnounce
  unacked : fsm.grantAck = 0
  frames : fsm.floodFrames = 1
  period : fsm.heartbeatPeriod = p

/-- The rate of a slave is set once. -/
theorem reacFsmStep_period (fsm : ReacFsm) (ev : FsmEvent) :
    (reacFsmStep fsm ev).1.heartbeatPeriod = fsm.heartbeatPeriod := by
  have hlearns : ∀ {base : ReacFsm}, Learns fsm ev base → base.heartbeatPeriod = fsm.heartbeatPeriod := by
    intro base hb
    cases hb with
    | nothing | master => rfl
  have hcourts : (coldconnectHears fsm ev).heartbeatPeriod = fsm.heartbeatPeriod := by
    obtain ⟨_, _, heq, -⟩ := coldconnectHears_eq fsm ev
    rw [heq]
  have hmove := reacFsmStep_move fsm ev
  generalize reacFsmStep fsm ev = r at hmove
  cases hmove with
  | flood _ _ hb | floodDone _ _ hb =>
    have hbase := hlearns hb
    exact hbase
  | lost _ hb | acked _ hb | gaveUp _ hb | court _ hb =>
    subst hb
    exact hcourts
  | alive | audio | audioTick => rw [audioOne_fst]
  | linkDown | linkUp | dark | earlyGrant | rest | rested | muteHold | mute | muted | macChange | peerGone
  | announce => rfl

/-- A request for the link state that is already seen changes nothing; any other is a step. -/
theorem boxPhy (u : BoxUnit) (s : Slave) (want : Bool) :
    let s' := ((boxStation u).machine.step s ({ ev := .phy want }, none)).1
    s'.phyUpSeen = want ∧
      s'.fsm = if want = s.phyUpSeen then s.fsm else (reacFsmStep s.fsm (if want then .phyUp else .phyDown)).1 := by
  change (slaveLoop u.cfg s { ev := .phy want }).1.phyUpSeen = want ∧
    (slaveLoop u.cfg s { ev := .phy want }).1.fsm = _
  by_cases hseen : want = s.phyUpSeen
  · simp only [slaveLoop, hseen, if_true, and_self]
  · simp only [slaveLoop, hseen, if_false]
    cases want with
    | true =>
      simp only [if_true]
      exact ⟨(slaveEmit_wire u.cfg _ _ _).1.up, slaveEmit_fsm u _ _ _⟩
    | false => exact ⟨rfl, rfl⟩

theorem bounced (u : BoxUnit) (s : Slave) :
    Floods s.fsm.heartbeatPeriod ((boxStation u).machine.run s bounce).fsm := by
  obtain ⟨hup₁, hfsm₁⟩ := boxPhy u s true
  unfold bounce
  simp only [List.map_cons, List.map_nil, Reactive.Machine.run_cons, Reactive.Machine.run_nil]
  generalize ((boxStation u).machine.step s ({ ev := .phy true }, none)).1 = s₁ at hup₁ hfsm₁ ⊢
  obtain ⟨hup₂, hfsm₂⟩ := boxPhy u s₁ false
  generalize ((boxStation u).machine.step s₁ ({ ev := .phy false }, none)).1 = s₂ at hup₂ hfsm₂ ⊢
  obtain ⟨-, hfsm₃⟩ := boxPhy u s₂ true
  rw [hup₁] at hfsm₂
  rw [hup₂] at hfsm₃
  simp only [Bool.false_eq_true, Bool.true_eq_false, if_false, if_true] at hfsm₂ hfsm₃
  rw [hfsm₃, hfsm₂]
  have hsame : s₁.fsm.heartbeatPeriod = s.fsm.heartbeatPeriod := by
    rw [hfsm₁]
    split_ifs
    · rfl
    · exact reacFsmStep_period ..
    · exact reacFsmStep_period ..
  exact ⟨rfl, rfl, rfl, hsame⟩

/-- The box floods and knows the desk. -/
structure FloodsFor (desk : Mac) (p n : ℤ) (fsm : ReacFsm) : Prop where
  state : fsm.state = .floodAnnounce
  known : fsm.haveMaster = true
  master : fsm.masterMac = desk
  unacked : fsm.grantAck = 0
  frames : fsm.floodFrames = n
  period : fsm.heartbeatPeriod = p

/-- A frame only a desk sends, and no grant, names the desk. -/
theorem Floods.hears {p : ℤ} (h : Floods p fsm) {rx : CtrlParsed} (hk : isMasterFrame rx.kind = true)
    (hg : rx.kind ≠ .grant) : FloodsFor rx.src p 2 (reacFsmStep fsm (.rx rx)).1 := by
  have hlearnt : heardMaster fsm rx = learnMaster fsm rx := by rw [heardMaster, if_pos hk]
  have hstep : reacFsmStep fsm (.rx rx) = floodOne (learnMaster fsm rx) := by
    simp only [reacFsmStep, h.state, stepFlood, hlearnt, if_neg hg]
  have hframes : (learnMaster fsm rx).floodFrames = 1 := h.frames
  have htick : (floodTick (learnMaster fsm rx)).1.floodFrames = 2 := by
    simp [floodTick, ReacFsm.out, hframes, floodBurst]
  rw [hstep, floodOne]
  dsimp only
  rw [if_neg (by simp [htick, floodBurst])]
  exact ⟨h.state, rfl, rfl, h.unacked, htick, h.period⟩

/-- A box that courts the desk: `wait` frames to the next record, `n` frames of the courtship spent. -/
structure Woos (desk : Mac) (p wait n : ℤ) (fsm : ReacFsm) : Prop where
  state : fsm.state = .coldconnect
  known : fsm.haveMaster = true
  master : fsm.masterMac = desk
  unacked : fsm.grantAck = 0
  clear : fsm.emitJoin = false
  wait : fsm.joinRetryCountdown = wait
  frames : fsm.coldconnectFrames = n
  period : fsm.heartbeatPeriod = p

/-- The flood goes on until the burst is out, and the courtship begins. -/
theorem FloodsFor.courts {p n : ℤ} (h : FloodsFor desk p n fsm) (hn : n < floodBurst) :
    ∃ k, Woos desk p 0 0 (fsmMachine.run fsm (List.replicate k .tick)) := by
  have htick : ∀ {fsm : ReacFsm} {n : ℤ}, FloodsFor desk p n fsm → n < floodBurst →
      (floodTick fsm).1.floodFrames = n + 1 := by
    intro fsm n h hn
    simp [floodTick, ReacFsm.out, h.frames, hn]
  obtain ⟨left, hleft⟩ : ∃ left : ℕ, floodBurst - n = left + 1 := ⟨(floodBurst - n - 1).toNat, by omega⟩
  induction left generalizing fsm n with
  | zero =>
    have hstep : reacFsmStep fsm .tick =
        (armColdconnect { (floodTick fsm).1 with state := .coldconnect }, (floodTick fsm).2) := by
      simp only [reacFsmStep, h.state, stepFlood, floodOne]
      rw [if_pos ⟨by rw [htick h hn]; omega, h.known⟩]
    refine ⟨1, ?_⟩
    change Woos desk p 0 0 (reacFsmStep fsm .tick).1
    rw [hstep]
    exact ⟨rfl, h.known, h.master, h.unacked, rfl, rfl, rfl, h.period⟩
  | succ left ih =>
    have hstep : reacFsmStep fsm .tick = floodTick fsm := by
      simp only [reacFsmStep, h.state, stepFlood, floodOne]
      rw [if_neg (by rw [htick h hn]; omega)]
    have hnext : FloodsFor desk p (n + 1) (floodTick fsm).1 :=
      ⟨h.state, h.known, h.master, h.unacked, htick h hn, h.period⟩
    obtain ⟨k, hk⟩ := ih hnext (by omega) (by omega)
    refine ⟨k + 1, ?_⟩
    rw [List.replicate_succ, Reactive.Machine.run_cons, fsmMachine_step, hstep]
    exact hk

/-- One frame of the courtship. -/
theorem Woos.tick {p wait n : ℤ} (h : Woos desk p wait n fsm) (hn : n < fsm.courtBudget) :
    Woos desk p (if wait ≤ 1 then joinRetryPeriod else wait - 1) (n + 1) (reacFsmStep fsm .tick).1 ∧
      (reacFsmStep fsm .tick).2.action = .unicastColdconnect ∧
      (reacFsmStep fsm .tick).2.emitJoin = decide (wait ≤ 1) := by
  have hstep : reacFsmStep fsm .tick = coldconnectTick fsm := by
    have hframes := h.frames
    simp only [reacFsmStep, h.state, coldconnectHears, courtOne, h.known, h.unacked, Bool.not_true,
      Bool.false_eq_true, if_false, lt_irrefl, false_and, true_and]
    rw [if_neg (by omega)]
  have hdue : (fsm.joinRetryCountdown - 1 ≤ 0) ↔ wait ≤ 1 := by
    rw [h.wait]
    omega
  rw [hstep]
  refine ⟨⟨h.state, h.known, h.master, h.unacked, rfl, ?_, ?_, h.period⟩, rfl, ?_⟩
  · simp only [coldconnectTick, ReacFsm.out, hdue]
    rw [h.wait]
  · simp only [coldconnectTick, ReacFsm.out, h.frames]
  · simp only [coldconnectTick, ReacFsm.out, hdue, h.clear]
    by_cases hwait : wait ≤ 1
    · simp [hwait]
    · simp [hwait]

/-- The frame of a pass is that of its decision, and only a join moves the escalation on. -/
theorem Woos.pass {p wait n : ℤ} (h : Woos desk p wait n s.fsm) (hn : n < s.fsm.courtBudget) :
    let r := (boxStation u).machine.step s boxIdle
    Woos desk p (if wait ≤ 1 then joinRetryPeriod else wait - 1) (n + 1) r.1.fsm ∧
      r.1.coldconnectPhase = s.coldconnectPhase + (if wait ≤ 1 then 1 else 0) ∧
      (wait ≤ 1 → s.coldconnectPhase % 8 = 4 → u.cfg.builds (.record .config) = true →
        ∃ c, r.2 = u.frame desk c none (.record .config)) := by
  obtain ⟨hnext, haction, hjoin⟩ := h.tick hn
  have hloop : slaveLoop u.cfg s { ev := .idle } =
      slaveEmit u.cfg { s with fsm := (reacFsmStep s.fsm .tick).1 } (mapAction (reacFsmStep s.fsm .tick).2)
        { ev := .idle } := rfl
  have hemit : ∀ {s : Slave} {d : SlaveDecision}, slaveEmit u.cfg s d { ev := .idle } = emitDesk u.cfg s d := by
    intro s d
    unfold slaveEmit emitDecision
    rw [if_neg (by rintro ⟨hbm, -⟩; cases hbm)]
    rfl
  have hdecision : mapAction (reacFsmStep s.fsm .tick).2 =
      { emit := .coldconnect, withJoin := decide (wait ≤ 1), state := (reacFsmStep s.fsm .tick).2.state } := by
    simp only [mapAction, haction, hjoin]
  have hfsm := boxIdle_fsm u s
  dsimp only
  rw [hfsm]
  refine ⟨hnext, ?_, ?_⟩
  · change (slaveLoop u.cfg s { ev := .idle }).1.coldconnectPhase = _
    rw [hloop, hemit, hdecision]
    unfold emitDesk
    by_cases hwait : wait ≤ 1
    · simp [hwait]
    · simp [hwait]
  · intro hwait hphase hbuilds
    refine ⟨(reacFsmStep s.fsm .tick).1.counter, ?_⟩
    have hframe : (slaveLoop u.cfg s { ev := .idle }).2 = some
        { counter := (reacFsmStep s.fsm .tick).1.counter, broadcast := false, body := .record .config } := by
      rw [hloop, hemit, hdecision]
      simp [emitDesk, hwait, escalationRecord, hphase, recordBody, hbuilds]
    change (slaveLoop u.cfg s { ev := .idle }).2.bind (fun f =>
      u.frame (slaveLoop u.cfg s { ev := .idle }).1.fsm.masterMac f.counter none f.body) = _
    have hmac : (slaveLoop u.cfg s { ev := .idle }).1.fsm.masterMac = desk :=
      (congrArg ReacFsm.masterMac hfsm).trans hnext.master
    rw [hframe, Option.bind_some, hmac]

/-- Between two records the box sends fillers. -/
theorem Woos.fillers {p wait n : ℤ} {k : ℕ} (h : Woos desk p wait n s.fsm) (hk : (k : ℤ) < wait)
    (hn : n + k ≤ s.fsm.courtBudget) :
    let s' := (boxStation u).machine.run s (List.replicate k boxIdle)
    Woos desk p (wait - k) (n + k) s'.fsm ∧ s'.coldconnectPhase = s.coldconnectPhase := by
  induction k with
  | zero => simpa using h
  | succ k ih =>
    obtain ⟨hwoos, hphase⟩ := ih (by omega) (by omega)
    dsimp only at hwoos hphase ⊢
    rw [List.replicate_succ', Reactive.Machine.run_append]
    generalize (boxStation u).machine.run s (List.replicate k boxIdle) = s' at hwoos hphase
    have hrate : s'.fsm.courtBudget = s.fsm.courtBudget := by
      unfold ReacFsm.courtBudget ReacFsm.framesPerS
      rw [hwoos.period, h.period]
    obtain ⟨hnext, hphase', -⟩ := hwoos.pass (u := u) (by rw [hrate]; omega)
    have hlong : ¬ wait - k ≤ 1 := by omega
    rw [if_neg hlong] at hnext hphase'
    refine ⟨?_, hphase'.trans hphase⟩
    push_cast
    rw [show wait - (k + 1) = wait - k - 1 by omega, ← add_assoc]
    exact hnext

/-- Record by record the escalation comes to the declaration. -/
theorem Woos.escalates {p wait n : ℤ} (h : Woos desk p wait n s.fsm) (hwait : wait ≤ 1)
    (hn : n + 800 * ((4 + 7 * s.coldconnectPhase) % 8 : ℕ) < s.fsm.courtBudget) :
    ∃ (k : ℕ) (wait' n' : ℤ), let s' := (boxStation u).machine.run s (List.replicate k boxIdle)
      Woos desk p wait' n' s'.fsm ∧ wait' ≤ 1 ∧ n' < s'.fsm.courtBudget ∧
        s'.coldconnectPhase % 8 = 4 := by
  obtain ⟨left, hleft⟩ : ∃ left, (4 + 7 * s.coldconnectPhase) % 8 = left := ⟨_, rfl⟩
  induction left generalizing s wait n with
  | zero =>
    refine ⟨0, wait, n, h, hwait, ?_, ?_⟩
    · simpa [hleft] using hn
    · show s.coldconnectPhase % 8 = 4
      omega
  | succ left ih =>
    -- A record of the escalation and the fillers behind it.
    rw [hleft] at hn
    obtain ⟨hnext, hphase, -⟩ := h.pass (u := u) (by omega)
    rw [if_pos hwait] at hnext hphase
    have hrate : ∀ {s' : Slave} {wait' n' : ℤ}, Woos desk p wait' n' s'.fsm →
        s'.fsm.courtBudget = s.fsm.courtBudget := by
      intro s' wait' n' h'
      unfold ReacFsm.courtBudget ReacFsm.framesPerS
      rw [h'.period, h.period]
    obtain ⟨hgrid, hphase'⟩ := hnext.fillers (u := u) (k := 799) (by decide) (by rw [hrate hnext]; push_cast; omega)
    obtain ⟨k, wait', n', hwoos, hw, hb, hat⟩ := ih hgrid (by decide)
      (by rw [hrate hgrid, hphase', hphase]; push_cast; omega) (by rw [hphase', hphase]; omega)
    refine ⟨800 + k, wait', n', ?_⟩
    rw [List.replicate_add, Reactive.Machine.run_append, show (800 : ℕ) = 799 + 1 from rfl, List.replicate_succ,
      Reactive.Machine.run_cons]
    exact ⟨hwoos, hw, hb, hat⟩

/-- The desk's grant opens the window in which the box acknowledges it. -/
theorem Woos.granted {p wait n : ℤ} (h : Woos desk p wait n fsm) {rx : CtrlParsed} (hk : rx.kind = .grant)
    (hsrc : rx.src = desk) : let fsm' := (reacFsmStep fsm (.rx rx)).1
    fsm'.state = .coldconnect ∧ fsm'.haveMaster = true ∧ fsm'.masterMac = desk ∧ fsm'.grantAck = 7199 := by
  have hhears : coldconnectHears fsm (.rx rx) = { learnMaster fsm rx with grantAck := grantAckFrames } := by
    have hlearnt : heardMaster fsm rx = learnMaster fsm rx := by rw [heardMaster, if_pos (by rw [hk]; rfl)]
    have hopens : rx.kind = .grant ∧ (learnMaster fsm rx).grantAck = 0 := ⟨hk, h.unacked⟩
    simp only [coldconnectHears, hlearnt, hopens, and_self, if_true]
  have hstep : reacFsmStep fsm (.rx rx) = coldconnectTick { learnMaster fsm rx with grantAck := 7199 } := by
    simp only [reacFsmStep, h.state, hhears, courtOne, learnMaster, grantAckFrames]
    rfl
  rw [hstep]
  exact ⟨h.state, rfl, hsrc, rfl⟩

/-- The window runs down, the box goes quiet for a moment, and it is established. -/
theorem acknowledges (hs : fsm.state = .coldconnect) (hm : fsm.haveMaster = true) (hmac : fsm.masterMac = desk)
    (ha : fsm.grantAck = 7199) : ∃ k, let fsm' := fsmMachine.run fsm (List.replicate k .tick)
    fsm'.state = .established ∧ fsm'.haveMaster = true ∧ fsm'.masterMac = desk := by
  -- The two lengths stay names: nothing here is evaluated.
  obtain ⟨a, hlen⟩ : ∃ a : ℕ, (a : ℤ) + 1 = fsm.grantAck := ⟨7198, by rw [ha]; rfl⟩
  obtain ⟨b, hdwell⟩ : ∃ b : ℕ, (b : ℤ) + 1 = 800 := ⟨799, rfl⟩
  obtain ⟨hs₁, hm₁, hmac₁, ha₁⟩ := acking_ticks hs hm (n := a) (by omega)
  generalize hf₁ : fsmMachine.run fsm (List.replicate a .tick) = f₁ at hs₁ hm₁ hmac₁ ha₁
  obtain ⟨hs₂, hd₂, hm₂, hmac₂⟩ := acked_step hs₁ hm₁ (by omega)
  generalize hf₂ : (fsmMachine.event f₁ .tick).post = f₂ at hs₂ hd₂ hm₂ hmac₂
  obtain ⟨hs₃, hm₃, hmac₃, hd₃⟩ := muting_ticks hs₂ hm₂ (n := b) (by omega)
  generalize hf₃ : fsmMachine.run f₂ (List.replicate b .tick) = f₃ at hs₃ hm₃ hmac₃ hd₃
  have hticks : List.replicate (a + (b + 1 + 1)) FsmEvent.tick =
      List.replicate a .tick ++ .tick :: (List.replicate b .tick ++ [.tick]) := by
    rw [← List.replicate_succ', ← List.replicate_succ, List.replicate_append_replicate]
  have hrun : fsmMachine.run fsm (List.replicate (a + (b + 1 + 1)) .tick) = (reacFsmStep f₃ .tick).1 := by
    rw [hticks, Reactive.Machine.run_append, hf₁, Reactive.Machine.run_cons, Reactive.Machine.run_append]
    change fsmMachine.run (fsmMachine.run (fsmMachine.event f₁ .tick).post (List.replicate b .tick)) [.tick] = _
    rw [hf₂, hf₃]
    rfl
  have hover : f₃.txmuteDwell - 1 ≤ 0 := by omega
  refine ⟨a + (b + 1 + 1), ?_⟩
  rw [hrun]
  simp only [reacFsmStep, hs₃, stepTxMute, muteOne, hover, if_true, ReacFsm.out]
  exact ⟨trivial, hm₃, hmac₃.trans (hmac₂.trans (hmac₁.trans hmac))⟩

end Box

/-! ## The declaration -/

section Declaration

variable {u : BoxUnit} {desk dst src : Mac} {counter : UInt16} {frame : List UInt8} {a : GrantAlloc}

/-- A box whose declaration the desk can read and place: the slots `a` are free for it. -/
structure Placeable (desk : Mac) (u : BoxUnit) (a : GrantAlloc) : Prop where
  roland : rolandMac u.src
  other : u.src ≠ desk
  desk : desk ≠ broadcastMac
  builds : u.cfg.builds (.record .config) = true
  accepts : u.row.refuses .config = false
  counts : 0 ≤ u.row.inCh ∧ 0 ≤ u.row.outCh
  selector : u.row.selector = 0x82 ∨ u.row.selector = 0x80 ∨ u.row.selector = 0x84
  fits : grantAllocate u.row.ports.headampBase u.row.ports.inCh = some a
  /-- The rate is one of REAC, or it is not known and the default stands. -/
  rate : u.sampleRate = 0 ∨ ∃ r : Rate, u.sampleRate = r.hz

/-- Whom a frame is for and from does not decide whether it is built. -/
theorem ctrlEmitAs_isSome (f : CtrlRow) (model : Option BoxRow) (dst dst' src src' : Mac) (counter counter' : UInt16)
    (nCh : ℤ) (args : Option (List UInt8)) (planar : Planes) (ns : ℤ) :
    (ctrlEmitAs f model dst src counter nCh args planar ns).isSome =
      (ctrlEmitAs f model dst' src' counter' nCh args planar ns).isSome := by
  unfold ctrlEmitAs
  dsimp only
  split_ifs <;> rfl

theorem BoxUnit.config_eq (u : BoxUnit) (dst : Mac) (counter : UInt16) :
    u.frame dst counter none (.record .config) =
      ctrlEmitAs (ctrlFrames .configAnnounce) u.model dst u.src counter u.channels none none 0 :=
  u.buildBlock_eq .config

theorem Placeable.built (h : Placeable desk u a) (dst : Mac) (counter : UInt16) :
    ∃ frame, u.frame dst counter none (.record .config) = some frame := by
  have hbuilds := h.builds
  change (u.frame noMac 0 none (.record .config)).isSome = true at hbuilds
  rw [u.config_eq, ctrlEmitAs_isSome _ _ noMac dst u.src u.src 0 counter, ← u.config_eq] at hbuilds
  exact Option.isSome_iff_exists.mp hbuilds

theorem macAt_hdrBytes_dst (t0 t1 : UInt8) (rest : List UInt8) :
    macAt (hdrBytes dst src counter t0 t1 ++ rest) 0 = dst := by
  have hlen : dst.toList.length = 6 := dst.length_toList
  unfold macAt
  ext i hi
  rw [Vector.getElem_ofFn, Nat.zero_add, hdrBytes, List.append_assoc, List.append_assoc,
    byteAt_append_left (by omega)]
  simp [byteAt, hi]

/-- The declaration of the box is read by the desk as what it is. -/
theorem Placeable.declares (h : Placeable desk u a)
    (hframe : u.frame desk counter none (.record .config) = some frame) :
    BoxDeclares desk frame u.src u.row.ports a := by
  rw [u.config_eq] at hframe
  have hrow := @emitted_of_built (ctrlFrames .configAnnounce) u.model desk u.src counter u.channels 0 none frame
    (by rintro ⟨⟩) (by rintro ⟨⟩) hframe
  change Emitted (ctrlFrames .configAnnounce) u.row u.src frame at hrow
  have hdst : macAt frame 0 = desk := by
    obtain ⟨w, body, rfl, -⟩ := ctrlEmitAs_eq (f := ctrlFrames .configAnnounce) (by rintro ⟨⟩) (by rintro ⟨⟩) hframe
    rw [List.append_assoc]
    exact macAt_hdrBytes_dst ..
  have hcarries := hrow.carries_config h.counts h.accepts
  have hlen : (configBytes u.row).length = 31 := by
    simp [configBytes, length_configPorts h.accepts h.counts]
  have hlink : byteAt (blockCheck (configBytes u.row)) 0 = 0x01 := by
    rw [byteAt_blockCheck (by omega) (by omega)]
    rfl
  have hselector : byteAt (blockCheck (configBytes u.row)) 4 = u.row.selector := by
    rw [byteAt_blockCheck (by omega) (by omega)]
    rfl
  have hroland : rolandMac (macAt frame 6) := by
    rw [hrow.source]
    exact h.roland
  obtain ⟨parsed, hclass⟩ := (classify_config hcarries (byteSum_blockCheck _) hroland hlink hdst).mpr
    ⟨by rw [hrow.source]; exact h.other, h.desk, by rw [hselector]; exact h.selector⟩
  have hkind : (ctrlParse frame).kind = .configAnnounce := by
    rw [hcarries.kind_link1 hlink, hselector]
    exact kindOfLink1_config.mpr h.selector
  have hfirst : byteAt frame (18 + 0) = 0x01 := (configBytes_head hcarries hlen).1
  refine ⟨⟨?_, ?_, ?_⟩, ?_, ?_, h.fits⟩
  · rw [hrow.clean]
    unfold identityReply
    dsimp only
    rw [if_pos (.inl (by rw [hkind]; decide))]
  · rw [hrow.clean]
    unfold isIdentityFragment
    simp [hfirst]
  · rw [hrow.clean, hclass, Option.map_some, classifyBoxFrame_src hclass, hrow.source]
  · rw [hrow.clean]
    exact hrow.long
  · rw [hrow.clean]
    exact hrow.reads_ports h.counts h.accepts h.selector

/-- Every box of the captures can be placed. -/
theorem captured_placeable {m : BoxRow} (hm : m ∈ boxCaptured) (hroland : rolandMac src) (hother : src ≠ desk)
    (hdesk : desk ≠ broadcastMac) : ∃ a, Placeable desk { src := src, model := some m } a := by
  have hbuilds : ({ src := src, model := some m : BoxUnit }.cfg.builds (.record .config)) =
      ({ src := noMac, model := some m : BoxUnit }.cfg.builds (.record .config)) := by
    unfold BoxUnit.cfg
    dsimp only
    rw [BoxUnit.config_eq, BoxUnit.config_eq]
    exact ctrlEmitAs_isSome ..
  have hrows : ∀ m ∈ boxCaptured,
      ({ src := noMac, model := some m : BoxUnit }.cfg.builds (.record .config)) = true ∧
        m.refuses .config = false ∧ (0 ≤ m.inCh ∧ 0 ≤ m.outCh) ∧
        (m.selector = 0x82 ∨ m.selector = 0x80 ∨ m.selector = 0x84) ∧
        (grantAllocate m.ports.headampBase m.ports.inCh).isSome = true := by
    decide +kernel
  obtain ⟨hbuilt, haccepts, hcounts, hselector, hfits⟩ := hrows m hm
  obtain ⟨a, ha⟩ := Option.isSome_iff_exists.mp hfits
  exact ⟨a, hroland, hother, hdesk, hbuilds.trans hbuilt, haccepts, hcounts, hselector, ha, .inl rfl⟩

end Declaration

/-! ## The desk on its own -/

section Desk

variable {env : Env} {p q : Pacer} {m : Master} {t : MasterTunables} {tx : HeadampTx}

/-- A slot of the desk with nothing queued for it. -/
def deskSlot : PacerInput × Option QueuedFrame := (.slot, none)

theorem deskSlots_run (env : Env) (p : Pacer) (n : ℕ) :
    (deskStation env).machine.run p (List.replicate n deskSlot) =
      (pacerMachine env).run p (List.replicate n .slot) := by
  induction n generalizing p with
  | zero => rfl
  | succ n ih =>
    rw [List.replicate_succ, List.replicate_succ, Reactive.Machine.run_cons, Reactive.Machine.run_cons, ih]
    rfl

/-- A slot leaves nothing waiting. -/
theorem slot_idles (env : Env) (p : Pacer) : Idles (pacerStep env p .slot).1 := by
  have hdrained : (rateDrain env p).1.rateReqPending = false := by
    unfold rateDrain
    split_ifs with hpending
    · simp [applyRate, Pacer.rateReqPending]
    · exact Bool.eq_false_of_not_eq_true hpending
  rw [(pacerStep_slot_eq env p).1]
  refine ⟨(masterSlot_keeps env _).pending.trans hdrained, ?_⟩
  obtain ⟨_, _, _, _, _, _, _, _, _, _, heq, -⟩ := masterSlot_eq env (rateDrain env p).1
  rw [heq]

theorem deskSlot_eq (env : Env) (p : Pacer) : (deskStation env).machine.step p deskSlot =
    ((pacerStep env p .slot).1, (pacerStep env p .slot).2.sent.map (deskFrame p.src none)) := rfl

/-- A slot that drains a request is the slot of the pacer that has drained it. -/
theorem slot_drained (h : Idles (rateDrain env q).1) (hsrc : (rateDrain env q).1.src = q.src) :
    (deskStation env).machine.step q deskSlot = (deskStation env).machine.step (rateDrain env q).1 deskSlot := by
  have hrest : rateDrain env (rateDrain env q).1 = ((rateDrain env q).1, []) := by
    generalize (rateDrain env q).1 = r at h
    unfold rateDrain
    rw [h.pending]
    rfl
  obtain ⟨hpost, hsent⟩ := pacerStep_slot_eq env q
  obtain ⟨hpost', hsent'⟩ := pacerStep_slot_eq env (rateDrain env q).1
  rw [deskSlot_eq, deskSlot_eq, hpost, hsent, hpost', hsent', hrest, hsrc]

/-- The pacer `q` is what a rate request makes of `p`: a slot, the request, and more slots. -/
def RestartOf (env : Env) (r : Rate) (p q : Pacer) : Prop :=
  ∃ n, q = (pacerMachine env).run p (.slot :: .requestRate r :: List.replicate n .slot)

/-- A rate request to a pacer that idles starts it over. -/
theorem Idles.restarts (h : Idles p) (env : Env) (r : Rate) :
    Rested (rateDrain env (requestRate p r)).1 ∧ (rateDrain env (requestRate p r)).1.src = p.src ∧
      (rateDrain env (requestRate p r)).1.rateHz = r.hz := by
  have hpending : (requestRate p r).rateReqPending = true := by
    have hseen := h.pending
    simp only [Pacer.rateReqPending, requestRate, bne_eq_false_iff_eq, bne_iff_ne] at hseen ⊢
    rw [hseen]
    simp
  have hdrain : (rateDrain env (requestRate p r)).1 =
      (applyRate env { requestRate p r with rateReqSeen := (requestRate p r).rateReqSeq } r.hz).1 := by
    unfold rateDrain
    rw [if_pos hpending]
    rfl
  obtain ⟨cfg, hmaster⟩ := applyRate_master env
    { requestRate p r with rateReqSeen := (requestRate p r).rateReqSeq } r.hz
  rw [hdrain]
  have hfps : 500 ≤ r.hz.tdiv samplesPerPkt := by
    cases r <;> decide
  refine ⟨rested_of_init env.tunables env.placeholder p.src cfg p.headamp hfps r.hour_fits ⟨?_, h.cmds⟩ rfl hmaster,
    rfl, rfl⟩
  simp [applyRate, Pacer.rateReqPending]

/-- The first slot of a desk that starts over opens the scene. -/
theorem Rested.opens (h : Rested p) (env : Env) :
    (masterNext env.tunables p.headamp p.master).2.emit = .sceneHead := by
  obtain ⟨cad, blk, hcyc, hstart⟩ := started_eq h.state
  have hstate : p.master.started.state = .probing := by rw [hstart]
  have hidle : p.master.started.state ≠ .idle := by
    rw [hstate]
    decide
  rw [← masterNext_started]
  have hmove := masterNext_move env.tunables p.headamp p.master.started
  generalize (masterNext env.tunables p.headamp p.master.started).1 = m',
    (masterNext env.tunables p.headamp p.master.started).2 = s at hmove
  cases hmove with
  | hunt h₀ hs hc =>
    obtain ⟨seen, tick, rfl⟩ := h₀.of_ne_idle hidle
    obtain ⟨c₀, -, hslot⟩ := controlCadence_probing hs hc
    rw [hstart] at hslot
    dsimp only at hslot
    rw [hcyc] at hslot
    exact hslot.at_head h.burst
  | grant h₀ hs | delivered h₀ hs | wait h₀ hs | boxUnknown h₀ hs | locked h₀ hs | lost h₀ hs =>
    obtain ⟨seen, tick, rfl⟩ := h₀.of_ne_idle hidle
    rw [hstate] at hs
    cases hs

/-- What a slot sends is a frame of REAC, with the block of the slot on it. -/
theorem slot_sends (h : Idles p) (env : Env) (hs : StampInv p.master) :
    let r := masterNext env.tunables p.headamp p.master
    ∃ g b, ((deskStation env).machine.step p deskSlot).2 = some g ∧ frameIsReac g = true ∧
      (ctrlParse g).src = p.src ∧ (ctrlParse g).kind = b.kind ∧
      (r.2.emit ≠ .filler → masterStamp r.1 r.2 = some b ∧ b.standsFor r.2.emit) := by
  obtain ⟨b, hb, hstands, -⟩ := masterSlot_ctrl env hs
  obtain ⟨hcarries, hmac⟩ := @deskFrame_carries p.src none _ _ hb
  have hstep : ((deskStation env).machine.step p deskSlot).2 =
      some (deskFrame p.src none (masterSlot env p).2.2) := by
    change (pacerStep env p .slot).2.sent.map (deskFrame p.src none) = _
    rw [h.slot_eq]
    rfl
  refine ⟨_, b, hstep, ?_, hcarries.header.1.trans hmac, hcarries.kind, hstands⟩
  have hlong := hcarries.long
  simp only [frameIsReac, hcarries.etype, and_self, and_true, decide_eq_true_eq]
  omega

/-- The rows sent are the first rows: the first one to be sent is row 0. -/
theorem first_row {o : Option ℤ} {n : ℕ} (h : [] ++ o.toList = (List.range n).map Int.ofNat) :
    o = some 0 ∨ o = none ∧ n = 0 := by
  cases o with
  | none => exact .inr ⟨rfl, by simpa using h.symm⟩
  | some j =>
    cases n with
    | zero => cases h
    | succ n =>
      rw [List.range_succ_eq_map, List.map_cons] at h
      exact .inl (congrArg some (List.cons.inj h).1)

/-- Before the first grant of a window a slot either sends it or leaves the window without one. -/
theorem Windowing.first (h : Windowing m) (ok : WindowOk m []) (hpos : 0 < m.grantBurst.length) (t : MasterTunables)
    (tx : HeadampTx) : let r := masterNext t tx m
    r.2.grantIdx = some 0 ∨ r.1.state = .granting ∧ WindowOk r.1 [] := by
  have hidle : m.state ≠ .idle := by
    rw [h.state]
    decide
  have hmove := masterNext_move t tx m
  dsimp only
  generalize (masterNext t tx m).1 = m', (masterNext t tx m).2 = s at hmove ⊢
  cases hmove with
  | hunt h₀ hs | locked h₀ hs | lost h₀ hs =>
    obtain ⟨seen, tick, rfl⟩ := h₀.of_ne_idle hidle
    simp [h.state] at hs
  | wait h₀ _ hb | boxUnknown h₀ _ hb =>
    obtain ⟨seen, tick, rfl⟩ := h₀.of_ne_idle hidle
    have hbox := h.box
    simp only [Master.hasBox] at hb hbox
    rw [hbox] at hb
    cases hb
  | grant h₀ hs hb hw hd =>
    obtain ⟨seen, tick, rfl⟩ := h₀.of_ne_idle hidle
    have ok' := ((ok.congr rfl rfl rfl rfl).slot h.stride h.dwell hb h.length_le hpos hw).2 hd
    rcases first_row ok'.sent_eq with hrow | ⟨hnone, -⟩
    · exact .inl hrow
    · rw [hnone] at ok'
      exact .inr ⟨hs, ok'.congr rfl rfl rfl rfl⟩
  | delivered h₀ hs hb hw hd =>
    obtain ⟨seen, tick, rfl⟩ := h₀.of_ne_idle hidle
    have hall := ((ok.congr rfl rfl rfl rfl).slot h.stride h.dwell hb h.length_le hpos hw).1 hd
    rcases first_row hall with hrow | ⟨-, hempty⟩
    · exact .inl hrow
    · exact absurd hempty hpos.ne'

/-- Left alone, a new window sends its first grant, and goes on or is delivered with it. -/
theorem Windowing.grants (h : Windowing m) (ok : WindowOk m []) (hpos : 0 < m.grantBurst.length) (t : MasterTunables)
    (tx : HeadampTx) : ∃ n m₀, (∀ k ≤ n, WindowsOn m ((masterMachine t).run m (List.replicate k (tx, .next)))) ∧
      (masterMachine t).run m (List.replicate n (tx, .next)) = m₀ ∧ Windowing m₀ ∧
      (masterNext t tx m₀).2.grantIdx = some 0 := by
  -- The clock is bounded, as in `Windowing.delivers`.
  obtain ⟨left, hleft⟩ : ∃ left : ℕ,
      m.geo.grantDwell + 12 * m.grantBurst.length + 1 - m.win.grantTicks ≤ left :=
    ⟨_, Int.self_le_toNat _⟩
  induction left generalizing m with
  | zero =>
    rcases h.first ok hpos t tx with hrow | ⟨hstate, -⟩
    · refine ⟨0, m, ?_, rfl, h, hrow⟩
      intro k hk
      obtain rfl : k = 0 := by omega
      exact .refl m
    · rcases h.next t tx with ⟨m₁, -, heq⟩ | ⟨-, -, htick, hle⟩
      · rw [heq] at hstate
        cases hstate
      · omega
  | succ left ih =>
    rcases h.first ok hpos t tx with hrow | ⟨hstate, ok'⟩
    · refine ⟨0, m, ?_, rfl, h, hrow⟩
      intro k hk
      obtain rfl : k = 0 := by omega
      exact .refl m
    · rcases h.next t tx with ⟨m₁, -, heq⟩ | ⟨hon, hwin, htick, -⟩
      · rw [heq] at hstate
        cases hstate
      · have hsame : (masterNext t tx m).1.geo = m.geo ∧ (masterNext t tx m).1.grantBurst = m.grantBurst := by
          obtain ⟨_, _, _, _, _, hm'⟩ := hon
          rw [hm']
          exact ⟨rfl, rfl⟩
        obtain ⟨n, m₀, hons, hrun, hwin₀, hrow⟩ := ih hwin ok' (by rw [hsame.2]; exact hpos)
          (by rw [hsame.1, hsame.2, htick]; omega)
        refine ⟨n + 1, m₀, ?_, ?_, hwin₀, hrow⟩
        · intro k hk
          cases k with
          | zero => exact .refl m
          | succ k =>
            rw [List.replicate_succ, Reactive.Machine.run_cons]
            exact hon.trans (hons k (by omega))
        · rw [List.replicate_succ, Reactive.Machine.run_cons]
          exact hrun

/-- What slots keep of a pacer that idles. -/
theorem Idles.slots (h : Idles p) (env : Env) (n : ℕ) :
    let p' := (pacerMachine env).run p (List.replicate n .slot)
    Idles p' ∧ Keeps p p' := by
  induction n generalizing p with
  | zero => exact ⟨h, rfl, rfl, rfl, rfl, rfl, rfl, rfl⟩
  | succ n ih =>
    have hkeeps : Keeps p (pacerStep env p .slot).1 := by
      rw [h.slot_eq]
      exact masterSlot_keeps env p
    obtain ⟨hidles, hrest⟩ := ih (slot_idles env p)
    exact ⟨hidles, hkeeps.trans hrest⟩

/-- Left alone, a pacer with a new window sends the first grant of it. -/
theorem Windowed.grants (h : Windowed p) (ok : WindowOk p.master []) (hpos : 0 < p.master.grantBurst.length)
    (env : Env) : ∃ n, let q := (pacerMachine env).run p (List.replicate n .slot)
    Windowed q ∧ WindowsOn p.master q.master ∧
      (masterNext env.tunables q.headamp q.master).2.grantIdx = some 0 := by
  obtain ⟨n, m₀, hons, hrun, hwin, hrow⟩ := h.window.grants ok hpos env.tunables p.headamp
  obtain ⟨hslots, -⟩ := h.idles.slots_quiet env n (by rw [h.prev]; decide) (by
    intro k _ hk
    rw [h.prev, (hons k hk).keeps.1]
    exact h.window.state)
  have hon := hons n le_rfl
  rw [hrun] at hslots hon
  refine ⟨n, ?_⟩
  rw [hslots]
  exact ⟨⟨⟨h.idles.pending, h.idles.cmds⟩, h.prev, hwin⟩, hon, hrow⟩

/-- The first row of a sweep is read as a grant. -/
theorem kind_firstRow {s : Slot} {b : Template} (hsweep : m.SweepOk) (hbox : m.hasBox = true)
    (hrow : s.grantIdx = some 0) (hb : masterStamp m s = some b) : b.kind = .grant := by
  obtain ⟨hemit, hidx⟩ : s.emit = .grant ∧ s.idx = 0 := by
    unfold Slot.grantIdx at hrow
    split_ifs at hrow with hemit
    exact ⟨hemit, Option.some.inj hrow⟩
  obtain ⟨tx, hrows⟩ := hsweep.1 hbox
  rw [grantBuildSweep_eq (hasBox_iff.mp hbox)] at hrows
  unfold masterStamp at hb
  rw [hemit, hidx, ← Option.some.inj hrows] at hb
  obtain rfl := Option.some.inj hb
  rw [kind_stampBlockCksum]
  decide

/-- The window of a declaration is new. -/
theorem Hunting.fresh {bytes : List UInt8} {src : Mac} {ports : BoxPorts} {a : GrantAlloc} (h : Hunting p)
    (hd : BoxDeclares p.src bytes src ports a) (env : Env) :
    (pacerStep env p (.frame bytes)).1.master.Fresh := by
  obtain ⟨-, hw, hpos⟩ := grantAllocate_eq_some hd.alloc
  have hnew : ports.inCh ≠ p.declaredIn := by
    rw [h.declared]
    omega
  have htaken := hd.sends.taken env (h.accepts src .config)
  obtain ⟨rows, box, -, hdecl⟩ := rxDeclare_applied hd.len hd.ports_eq hd.alloc (.inl hnew)
    (.inr (by rw [h.state]; decide))
  rw [hdecl] at htaken
  obtain ⟨hlatch, -⟩ := masterRx_latches p.headamp (m := p.master.declared a rows) src
    (eventBlock .config (cleanFrame bytes)) h.state h.ready (.inr rfl)
  obtain ⟨_, _, _, _, _, _, _, _, heq, -⟩ := htaken
  simp only [pacerStep]
  rw [heq]
  exact hlatch.fresh

end Desk

/-! ## The two together -/

section Recovery

variable {u : BoxUnit} {desk : Mac} {a : GrantAlloc} {fps : ℤ} {d d' : Duplex Pacer Slave (List UInt8)}

/-- A box keeps the rate it started with. -/
theorem slaveLoop_period (cfg : SlaveCfg) (s : Slave) (i : SlaveInput) :
    (slaveLoop cfg s i).1.fsm.heartbeatPeriod = s.fsm.heartbeatPeriod := by
  have hsame : ∀ {s s' : Slave}, SameLink s s' → s'.fsm.heartbeatPeriod = s.fsm.heartbeatPeriod := by
    intro s s' h
    obtain ⟨n, hfsm⟩ := h.fsm
    rw [hfsm]
  have hemit : ∀ (s' : Slave) (d : SlaveDecision),
      (slaveEmit cfg s' d i).1.fsm.heartbeatPeriod = s'.fsm.heartbeatPeriod :=
    fun s' d => hsame (slaveEmit_wire cfg s' d i).1
  have hstep : ∀ (s' : Slave) (ev : FsmEvent), (slaveStep s' ev).1.fsm.heartbeatPeriod = s'.fsm.heartbeatPeriod :=
    fun s' ev => reacFsmStep_period s'.fsm ev
  cases hi : i.ev with
  | phy want =>
    simp only [slaveLoop, hi]
    split_ifs
    · rfl
    · exact (hemit _ _).trans (hstep s .phyUp)
    · exact hstep s .phyDown
  | idle =>
    simp only [slaveLoop, hi]
    exact (hemit _ _).trans (hstep s _)
  | frame bytes =>
    simp only [slaveLoop, hi]
    by_cases hreac : frameIsReac bytes = true
    · by_cases hown : (ctrlParse bytes).src = cfg.src
      · simp only [slaveRx, hreac, hown, Bool.not_true, Bool.false_eq_true, if_false, if_true]
        split_ifs
        · exact hsame (slaveHeadampRx_same cfg s _)
        · rfl
      · obtain ⟨s₁, hs₁, heq⟩ := @slaveRx_eq cfg s bytes i hreac hown
        obtain ⟨c, hc⟩ := counterLock_fsm (slaveStep s₁ (.rx (ctrlParse bytes))).1 (ctrlParse bytes)
        rw [heq]
        refine (hemit _ _).trans ?_
        rw [hc]
        exact (hstep s₁ _).trans (hsame hs₁)
    · simp only [slaveRx, hreac, Bool.not_false, if_true]

/-- Slots of the desk, and nothing else. -/
theorem leads_slots (env : Env) (u : BoxUnit) (d : Duplex Pacer Slave (List UInt8)) (n : ℕ) :
    ∃ d', Leads (deskStation env) (boxStation u) d d' ∧
      d'.left = (pacerMachine env).run d.left (List.replicate n .slot) ∧ d'.right = d.right := by
  rw [← deskSlots_run]
  refine Leads.left_run d ?_
  intro i hi
  rw [List.eq_of_mem_replicate hi]
  rfl

/-- Passes of the box with nothing to read, and nothing else. -/
theorem leads_idles (env : Env) (u : BoxUnit) (d : Duplex Pacer Slave (List UInt8)) (n : ℕ) :
    ∃ d', Leads (deskStation env) (boxStation u) d d' ∧
      d'.right = (boxStation u).machine.run d.right (List.replicate n boxIdle) ∧ d'.left = d.left := by
  refine Leads.right_run d ?_
  intro i hi
  rw [List.eq_of_mem_replicate hi]
  rfl

/-- The box hears a frame of the desk. -/
theorem leads_hears (env : Env) {f : List UInt8} (hf : (Side.left, f) ∈ d.wire) (hreac : frameIsReac f = true)
    (hsrc : (ctrlParse f).src ≠ u.src) : ∃ d' c, Leads (deskStation env) (boxStation u) d d' ∧
      d'.right.fsm = { (reacFsmStep d.right.fsm (.rx (ctrlParse f))).1 with counter := c } ∧ d'.left = d.left := by
  obtain ⟨d', hl, hright, hleft, -⟩ := Leads.right (A := deskStation env) (B := boxStation u) d
    ({ ev := .frame f }, none) (by
      intro g hg
      obtain rfl := Option.some.inj hg
      exact hf)
  obtain ⟨c, hc⟩ := boxHears_fsm u d.right hreac hsrc
  exact ⟨d', c, hl, by rw [hright, hc], hleft⟩

/-- What any run of the segment leaves of the two parties. -/
structure SegmentKnown (desk : Mac) (u : BoxUnit) (fps : ℤ) (d : Duplex Pacer Slave (List UInt8)) : Prop where
  wire : Guarded (SegmentSends desk u) d.wire
  left : DeskKnows desk u d.wire d.left
  right : Convinced desk (GrantSent d.wire) d.right.fsm
  period : d.right.fsm.heartbeatPeriod = fps

namespace SegmentKnown

theorem leads {env : Env} (h : SegmentKnown desk u fps d) (hl : Leads (deskStation env) (boxStation u) d d') :
    SegmentKnown desk u fps d' := by
  have hbox := (box_upholds desk u).beside (J := fun s => s.fsm.heartbeatPeriod = fps)
    fun s i hs => (slaveLoop_period u.cfg s i.1).trans hs
  obtain ⟨hwire, hleft, hright, hperiod⟩ := hl.keeps (desk_upholds env desk u) hbox
    ⟨h.wire, h.left, h.right, h.period⟩
  exact ⟨hwire, hleft, hright, hperiod⟩

/-- A rate request starts the desk over: it opens its scene, and hunts when the scene is out. -/
theorem restarts (h : SegmentKnown desk u fps d) (env : Env) (r : Rate) :
    ∃ d' f, Leads (deskStation env) (boxStation u) d d' ∧ RestartOf env r d.left d'.left ∧ Hunting d'.left ∧
      d'.left.rateHz = r.hz ∧ d'.right = d.right ∧ (Side.left, f) ∈ d'.wire ∧ frameIsReac f = true ∧
      (ctrlParse f).src = desk ∧ (ctrlParse f).kind = .sceneTransfer := by
  -- The request finds a pacer with nothing waiting.
  obtain ⟨d₁, hidled, hleft₁, hright₁, -⟩ := Leads.left (A := deskStation env) (B := boxStation u) d deskSlot
    (by rintro f ⟨⟩)
  obtain ⟨d₂, hrequest, hleft₂, hright₂, -⟩ := Leads.left (A := deskStation env) (B := boxStation u) d₁
    (.requestRate r, none) (by rintro f ⟨⟩)
  have hasked := hidled.trans hrequest
  have hknown := (h.leads hasked).left
  have hidles := slot_idles env d.left
  change d₁.left = (pacerStep env d.left .slot).1 at hleft₁
  change d₂.left = requestRate d₁.left r at hleft₂
  rw [← hleft₁] at hidles
  obtain ⟨hrested, hsrc, hrate⟩ := hidles.restarts env r
  rw [← hleft₂] at hrested hsrc hrate
  -- The next slot drains it and opens the scene.
  have hdrained := hknown.rateDrain env
  obtain ⟨f, b, hsent, hreac, hfsrc, hkind, hstands⟩ := slot_sends hrested.idles env hdrained.stamps
  have hopened := hstands (by rw [hrested.opens env]; decide)
  rw [hrested.opens env] at hopened
  obtain ⟨d₃, hslot, hleft₃, hright₃, hwire⟩ := Leads.left (A := deskStation env) (B := boxStation u) d₂ deskSlot
    (by rintro f ⟨⟩)
  have hthird : d₃.left = (pacerStep env d₂.left .slot).1 := hleft₃
  have hsteps : d₃.left = (pacerMachine env).run d.left [.slot, .requestRate r, .slot] := by
    have hslots : ∀ p, ((pacerMachine env).step p .slot).1 = (pacerStep env p .slot).1 := fun _ => rfl
    have hrequests : ∀ p, ((pacerMachine env).step p (.requestRate r)).1 = requestRate p r := fun _ => rfl
    simp only [Reactive.Machine.run_cons, Reactive.Machine.run_nil, hslots, hrequests]
    rw [hthird, hleft₂, hleft₁]
  rw [slot_drained hrested.idles (hdrained.src.trans hknown.src.symm)] at hleft₃ hwire
  -- The slots behind it.
  obtain ⟨n, hn, hhunts, -, -⟩ := hrested.hunts env
  have hkept := (hrested.idles.slots env n).2.rateHz
  obtain ⟨k, rfl⟩ : ∃ k, n = k + 1 := ⟨n - 1, by omega⟩
  obtain ⟨d₄, hrest, hleft₄, hright₄⟩ := leads_slots env u d₃ k
  rw [← deskSlots_run, List.replicate_succ, Reactive.Machine.run_cons, ← hleft₃, deskSlots_run,
    ← hleft₄] at hhunts hkept
  refine ⟨d₄, f, hasked.trans (hslot.trans hrest), ⟨k + 1, ?_⟩, hhunts, hkept.trans hrate, ?_,
    hrest.wire (hwire f hsent), hreac, hfsrc.trans hdrained.src, hkind.trans hopened.2⟩
  · rw [hleft₄, hsteps, ← Reactive.Machine.run_append]
    rfl
  · rw [hright₄, hright₃, hright₂, hright₁]

/-- A box whose link is bounced hears the desk, courts it and declares itself. -/
theorem courts (h : SegmentKnown desk u fps d) (hu : Placeable desk u a)
    (hfps : 1400 < fps ∧ fps ≤ 8000) (env : Env)
    {f : List UInt8} (hf : (Side.left, f) ∈ d.wire) (hreac : frameIsReac f = true) (hsrc : (ctrlParse f).src = desk)
    (hkind : (ctrlParse f).kind = .sceneTransfer) : ∃ d' g wait n,
      Leads (deskStation env) (boxStation u) d d' ∧ d'.left = d.left ∧ Woos desk fps wait n d'.right.fsm ∧
        (Side.right, g) ∈ d'.wire ∧ BoxDeclares desk g u.src u.row.ports a := by
  have hdeaf : ∀ i ∈ bounce, (boxStation u).hears i = none := by
    intro i hi
    obtain ⟨up, -, rfl⟩ := List.mem_map.mp hi
    rfl
  obtain ⟨d₁, hbounce, hright₁, hleft₁⟩ := Leads.right_run (A := deskStation env) d hdeaf
  have hfloods := bounced u d.right
  rw [← hright₁, h.period] at hfloods
  obtain ⟨d₂, c, hhears, hfsm₂, hleft₂⟩ := leads_hears env (u := u) (hbounce.wire hf) hreac
    (by rw [hsrc]; exact hu.other.symm)
  have hknows : FloodsFor (ctrlParse f).src fps 2 (reacFsmStep d₁.right.fsm (.rx (ctrlParse f))).1 :=
    hfloods.hears (by rw [hkind]; rfl) (by rw [hkind]; decide)
  rw [hsrc] at hknows
  have hnamed : FloodsFor desk fps 2 d₂.right.fsm := by
    rw [hfsm₂]
    exact ⟨hknows.state, hknows.known, hknows.master, hknows.unacked, hknows.frames, hknows.period⟩
  -- The rest of the flood, then the escalation up to the declaration.
  obtain ⟨k, hwoos⟩ := hnamed.courts (by decide)
  rw [← boxIdles_fsm u d₂.right k] at hwoos
  obtain ⟨d₃, hflood, hright₃, hleft₃⟩ := leads_idles env u d₂ k
  rw [← hright₃] at hwoos
  have hrate : d₃.right.fsm.courtBudget = 4 * fps := by
    unfold ReacFsm.courtBudget ReacFsm.framesPerS coldconnectBudgetS
    rw [hwoos.period, if_pos (by omega), wrapInt_of_lt (by omega) (by omega)]
  obtain ⟨k', wait, n, hwoos', hwait, hn, hphase⟩ := hwoos.escalates (u := u) (by decide) (by
    rw [hrate]
    omega)
  obtain ⟨d₄, hescalates, hright₄, hleft₄⟩ := leads_idles env u d₃ k'
  rw [← hright₄] at hwoos' hn hphase
  obtain ⟨d₅, hpass, hright₅, hleft₅, hwire⟩ := Leads.right (A := deskStation env) (B := boxStation u) d₄ boxIdle
    (by rintro f ⟨⟩)
  obtain ⟨hlast, -, hframe⟩ := hwoos'.pass (u := u) hn
  obtain ⟨counter, hsends⟩ := hframe hwait hphase hu.builds
  obtain ⟨g, hg⟩ := hu.built desk counter
  rw [← hright₅] at hlast
  refine ⟨d₅, g, _, _, hbounce.trans (hhears.trans (hflood.trans (hescalates.trans hpass))), ?_, hlast,
    hwire g (hsends.trans hg), hu.declares hg⟩
  rw [hleft₅, hleft₄, hleft₃, hleft₂, hleft₁]

/-- A hunting desk that hears the declaration grants it and is established. -/
theorem grants (h : SegmentKnown desk u fps d) (hh : Hunting d.left) (env : Env) {g : List UInt8}
    (hg : (Side.right, g) ∈ d.wire) (hd : BoxDeclares desk g u.src u.row.ports a) : ∃ d' f,
      Leads (deskStation env) (boxStation u) d d' ∧ d'.right = d.right ∧ d'.left.master.state = .established ∧
        d'.left.master.alloc = a ∧ d'.left.master.boxMac = u.src ∧ d'.left.rateHz = d.left.rateHz ∧
        (Side.left, f) ∈ d'.wire ∧ frameIsReac f = true ∧ (ctrlParse f).src = desk ∧ (ctrlParse f).kind = .grant := by
  obtain ⟨d₁, hheard, hleft₁, hright₁, -⟩ := Leads.left (A := deskStation env) (B := boxStation u) d
    (.frame g, none) (by
      intro f hf
      obtain rfl := Option.some.inj hf
      exact hg)
  change d₁.left = (pacerStep env d.left (.frame g)).1 at hleft₁
  have hdeclares := hd
  rw [← h.left.src] at hdeclares
  obtain ⟨hwindowed, halloc, hmac, -, -, -, hkeeps, -⟩ := hh.declares hdeclares env
  have hfresh := hh.fresh hdeclares env
  rw [← hleft₁] at hwindowed halloc hmac hkeeps hfresh
  have hknown₁ := (h.leads hheard).left
  -- The window runs up to its first grant.
  have hrows := (hknown₁.stamps.sweep.1 hwindowed.window.box).length
  obtain ⟨n, hwindowed₂, hon, hrow⟩ := hwindowed.grants (WindowOk.fresh hfresh hwindowed.window.dwell)
    (by rw [hrows.1]; unfold grantSweepLen; omega) env
  obtain ⟨d₂, hruns, hleft₂, hright₂⟩ := leads_slots env u d₁ n
  have hkeeps₂ := (hwindowed.idles.slots env n).2
  rw [← hleft₂] at hwindowed₂ hon hrow hkeeps₂
  have hknown₂ := (h.leads (hheard.trans hruns)).left
  -- The slot of the grant.
  obtain ⟨f, b, hsent, hreac, hfsrc, hkind, hstands⟩ := slot_sends hwindowed₂.idles env hknown₂.stamps
  have hgrant : (masterNext env.tunables d₂.left.headamp d₂.left.master).2.emit = .grant := by
    unfold Slot.grantIdx at hrow
    split_ifs at hrow with hemit
    exact hemit
  have hnext := (hknown₂.stamps.step env.tunables (d₂.left.headamp, .next)).sweep
  have hbox : (masterNext env.tunables d₂.left.headamp d₂.left.master).1.hasBox = true := by
    have hb := hwindowed₂.window.box
    rcases hwindowed₂.window.next env.tunables d₂.left.headamp with ⟨m₁, ⟨_, _, _, _, _, rfl⟩, heq⟩ | ⟨-, hwin, -⟩
    · rw [heq]
      exact hb
    · exact hwin.box
  have hread := kind_firstRow hnext hbox hrow (hstands (by rw [hgrant]; decide)).1
  obtain ⟨d₃, hslot, hleft₃, hright₃, hwire⟩ := Leads.left (A := deskStation env) (B := boxStation u) d₂ deskSlot
    (by rintro f ⟨⟩)
  -- The slots up to the end of the window.
  obtain ⟨k, hest, -⟩ := hwindowed₂.establishes env
  cases k with
  | zero =>
    have hstate := hest.state
    rw [List.replicate_zero, Reactive.Machine.run_nil, hwindowed₂.window.state] at hstate
    cases hstate
  | succ k =>
    obtain ⟨d₄, hrest, hleft₄, hright₄⟩ := leads_slots env u d₃ k
    rw [← deskSlots_run, List.replicate_succ, Reactive.Machine.run_cons, ← hleft₃, deskSlots_run,
      ← hleft₄] at hest
    refine ⟨d₄, f, hheard.trans (hruns.trans (hslot.trans hrest)), ?_, hest.state, ?_, ?_, ?_,
      hrest.wire (hwire f hsent), hreac, hfsrc.trans hknown₂.src, hkind.trans hread⟩
    · rw [hright₄, hright₃, hright₂, hright₁]
    · rw [hest.alloc, hon.keeps.2.1, halloc]
    · rw [hest.boxMac, hon.keeps.2.2.1, hmac]
    · rw [hest.keeps.rateHz, hkeeps₂.rateHz, hkeeps.rateHz]

/-- A box that courts the desk and hears its grant is established. -/
theorem holds {p wait n : ℤ} (hw : Woos desk p wait n d.right.fsm) (hother : u.src ≠ desk) (env : Env)
    {f : List UInt8} (hf : (Side.left, f) ∈ d.wire) (hreac : frameIsReac f = true) (hsrc : (ctrlParse f).src = desk)
    (hkind : (ctrlParse f).kind = .grant) : ∃ d', Leads (deskStation env) (boxStation u) d d' ∧ d'.left = d.left ∧
      d'.right.fsm.state = .established ∧ d'.right.fsm.haveMaster = true ∧ d'.right.fsm.masterMac = desk := by
  obtain ⟨d₁, c, hhears, hfsm₁, hleft₁⟩ := leads_hears env (u := u) hf hreac (by rw [hsrc]; exact hother.symm)
  obtain ⟨hstate, hknown, hmac, hack⟩ := hw.granted hkind hsrc
  obtain ⟨k, hest⟩ : ∃ k, let fsm' := fsmMachine.run d₁.right.fsm (List.replicate k .tick)
      fsm'.state = .established ∧ fsm'.haveMaster = true ∧ fsm'.masterMac = desk := by
    rw [hfsm₁]
    exact acknowledges hstate hknown hmac hack
  rw [← boxIdles_fsm u d₁.right k] at hest
  obtain ⟨d₂, hidles, hright₂, hleft₂⟩ := leads_idles env u d₁ k
  rw [← hright₂] at hest
  exact ⟨d₂, hhears.trans hidles, hleft₂.trans hleft₁, hest⟩

end SegmentKnown

/-- The desk has enrolled the box in the slots `a` at the rate `r`, and the box holds for the desk. -/
structure Reunited (desk : Mac) (u : BoxUnit) (a : GrantAlloc) (r : Rate) (d : Duplex Pacer Slave (List UInt8)) :
    Prop where
  session : d.left.master.state = .established
  slots : d.left.master.alloc = a
  box : d.left.master.boxMac = u.src
  rate : d.left.rateHz = r.hz
  holds : d.right.fsm.state = .established
  known : d.right.fsm.haveMaster = true
  master : d.right.fsm.masterMac = desk

/-- At every rate of REAC the budget of the courtship lasts for the whole escalation. -/
theorem Placeable.period (h : Placeable desk u a) :
    1400 < (slaveFsmInit u.cfg).fsm.heartbeatPeriod ∧ (slaveFsmInit u.cfg).fsm.heartbeatPeriod ≤ 8000 := by
  have hfps : u.cfg.fps = u.sampleRate.tdiv samplesPerPkt := rfl
  unfold slaveFsmInit
  rw [hfps]
  rcases h.rate with hunset | ⟨r, hr⟩
  · rw [hunset]
    decide
  · rw [hr]
    cases r <;> decide

/-- Whatever the desk and the box have come to, they can be brought together from there. -/
theorem SegmentKnown.reunites (h : SegmentKnown desk u fps d) (hu : Placeable desk u a)
    (hfps : 1400 < fps ∧ fps ≤ 8000) (env : Env) (r : Rate) :
    ∃ d', Leads (deskStation env) (boxStation u) d d' ∧ Reunited desk u a r d' := by
  obtain ⟨d₁, f, hfirst, -, hhunting, hrate₁, -, hf, hfreac, hfsrc, hfkind⟩ := h.restarts env r
  have h₁ := h.leads hfirst
  obtain ⟨d₂, c, wait, n, hsecond, hleft₂, hwoos, hc, hdeclares⟩ := h₁.courts hu hfps env hf hfreac hfsrc hfkind
  have h₂ := h₁.leads hsecond
  obtain ⟨d₃, g, hthird, hright₃, hstate, halloc, hmac, hrate₃, hg, hgreac, hgsrc, hgkind⟩ :=
    h₂.grants (by rw [hleft₂]; exact hhunting) env hc hdeclares
  rw [← hright₃] at hwoos
  obtain ⟨d₄, hlast, hleft₄, hheld, hknown, hmaster⟩ := SegmentKnown.holds hwoos hu.other env hg hgreac hgsrc hgkind
  refine ⟨d₄, hfirst.trans (hsecond.trans (hthird.trans hlast)), ?_, ?_, ?_, ?_, hheld, hknown, hmaster⟩
  · rw [hleft₄, hstate]
  · rw [hleft₄, halloc]
  · rw [hleft₄, hmac]
  · rw [hleft₄, hrate₃, hleft₂, hrate₁]

/-- What is known of a segment that starts. -/
theorem segmentStart_known (env : Env) (cfg : PacerCfg) (u : BoxUnit) :
    SegmentKnown cfg.srcMac u (slaveFsmInit u.cfg).fsm.heartbeatPeriod (segmentStart env cfg u) := by
  obtain ⟨hdesk, hbox⟩ := segmentStart_knows env cfg u
  exact ⟨Reactive.guarded_nil, hdesk, hbox, rfl⟩

/-! ## Runs of the segment -/

theorem plainUnit_placeable : Placeable deskMac plainUnit ⟨0x20, 16, by decide⟩ where
  roland := by decide
  other := by decide
  desk := by decide
  builds := by decide +kernel
  accepts := by decide
  counts := by decide
  selector := by decide
  fits := by decide
  rate := .inl rfl

/-- What the two parties agree on, whatever the wire has lost, doubled or kept back. -/
structure Enrolment (desk : Mac) (u : BoxUnit) (d : Duplex Pacer Slave (List UInt8)) : Prop where
  /-- The desk binds to no other box. -/
  box : d.left.master.boxMac = noMac ∨ d.left.master.boxMac = u.src
  /-- The slots it has allocated are those the box has declared. -/
  slots : d.left.master.hasBox = true → d.left.master.alloc.base = u.row.ports.headampBase ∧
    d.left.master.alloc.width = u.row.ports.inCh ∧ PortsDeclared u d.wire
  /-- It opens a window for the box, and the box has asked for it. -/
  window : d.left.master.state = .granting ∨ d.left.master.state = .established →
    d.left.master.boxMac = u.src ∧ JoinAsked desk d.wire
  session : d.left.master.state = .established → d.left.master.hasBox = true
  /-- The box follows no other master. -/
  master : d.right.fsm.haveMaster = true → d.right.fsm.masterMac = desk
  /-- It holds only on a grant, and the desk granted only what the box had declared before. -/
  order : d.right.fsm.Held → ∃ pre g post, d.wire = pre ++ (Side.left, g) :: post ∧
    (ctrlParse g).kind = .grant ∧ PortsDeclared u pre

/-- On a wire where frames may be lost, late, doubled or out of order, the desk and the box never disagree:
the desk grants to this box alone, the slots it declared and after it declared them, and the box holds for
this desk alone, on such a grant. -/
theorem segment_enrols (env : Env) (cfg : PacerCfg) (u : BoxUnit) (is : List SegmentInput)
    (hwire : ∀ log e, (segment env u).StepOf (segmentStart env cfg u) is log e →
      Delivered (deskStation env) (boxStation u) e.pre e.input) :
    Enrolment cfg.srcMac u ((segment env u).run (segmentStart env cfg u) is) := by
  obtain ⟨hdesk, hbox⟩ := segmentStart_knows env cfg u
  obtain ⟨hguarded, hleft, hright⟩ := duplex_rely_guarantee (desk_upholds env cfg.srcMac u)
    (box_upholds cfg.srcMac u) hdesk hbox (fun i _ => by cases i <;> trivial) hwire
  refine ⟨hleft.box.mac, hleft.box.declared, hleft.box.bound, hleft.box.locked, hright.known, ?_⟩
  intro hheld
  obtain ⟨g, hg, hkind⟩ := hright.granted (.inl hheld)
  obtain ⟨pre, post, hsplit, hfrom⟩ := hguarded.of_mem hg
  exact ⟨pre, g, post, hsplit, hkind, hfrom.grant hkind⟩

/-- A run in which the box declares itself, is granted its slots and holds for the desk. -/
theorem segment_enrols_granted : ∃ is,
    (∀ log e, (segment deskEnv plainUnit).StepOf (segmentStart deskEnv deskCfg plainUnit) is log e →
      Delivered (deskStation deskEnv) (boxStation plainUnit) e.pre e.input) ∧
    let d := (segment deskEnv plainUnit).run (segmentStart deskEnv deskCfg plainUnit) is
    Reunited deskMac plainUnit ⟨0x20, 16, by decide⟩ .r48000 d ∧ Enrolment deskMac plainUnit d := by
  have hstart := segmentStart_known deskEnv deskCfg plainUnit
  obtain ⟨d', ⟨is, hwire, hrun⟩, hreunited⟩ :=
    hstart.reunites plainUnit_placeable plainUnit_placeable.period deskEnv .r48000
  refine ⟨is, hwire, ?_, segment_enrols deskEnv deskCfg plainUnit is hwire⟩
  change Reunited _ _ _ _ ((duplex (deskStation deskEnv) (boxStation plainUnit)).run _ is)
  rw [hrun]
  exact hreunited

/-- Whatever a run has lost, doubled or kept back, and whatever the desk and the box have come to in it, they
can still be brought together: on from there some run of delivered frames ends with the box enrolled, in its own
slots and at any rate the host asks for. -/
theorem segment_recovers (env : Env) (cfg : PacerCfg) (u : BoxUnit) (a : GrantAlloc) (hu : Placeable cfg.srcMac u a)
    (r : Rate) (is : List SegmentInput)
    (hwire : ∀ log e, (segment env u).StepOf (segmentStart env cfg u) is log e →
      Delivered (deskStation env) (boxStation u) e.pre e.input) :
    ∃ js, (∀ log e, (segment env u).StepOf (segmentStart env cfg u) (is ++ js) log e →
        Delivered (deskStation env) (boxStation u) e.pre e.input) ∧
      Reunited cfg.srcMac u a r ((segment env u).run (segmentStart env cfg u) (is ++ js)) := by
  have h := (segmentStart_known env cfg u).leads ⟨is, hwire, rfl⟩
  obtain ⟨d', hleads, hreunited⟩ := h.reunites hu hu.period env r
  obtain ⟨js, hjs, hrun⟩ := Leads.onward hwire hleads
  refine ⟨js, hjs, ?_⟩
  change Reunited cfg.srcMac u a r ((duplex (deskStation env) (boxStation u)).run (segmentStart env cfg u) (is ++ js))
  rw [hrun]
  exact hreunited

/-- Two parties that each hear the first frame of the other. -/
theorem exchange_delivered {σ τ ι κ φ : Type} {A : Station σ ι φ} {B : Station τ κ φ} {s : σ} {t : τ} {k k' : κ}
    {i i' : ι} (hk : B.hears k = none) (hi : A.hears i = none) (hi' : A.hears i' = (B.machine.step t k).2)
    (hk' : B.hears k' = (A.machine.step s i).2) {log : List (Event (Duplex σ τ φ) (ι ⊕ κ) (Option φ))}
    {e : Event (Duplex σ τ φ) (ι ⊕ κ) (Option φ)}
    (he : (duplex A B).StepOf ⟨s, t, []⟩ [.inr k, .inl i, .inl i', .inr k'] log e) :
    Delivered A B e.pre e.input := by
  obtain ⟨rfl, rfl⟩ | ⟨log, rfl, he₁⟩ := he.of_cons
  · intro f hf
    rw [hk] at hf
    cases hf
  obtain ⟨rfl, rfl⟩ | ⟨log, rfl, he₂⟩ := he₁.of_cons
  · intro f hf
    rw [hi] at hf
    cases hf
  obtain ⟨rfl, rfl⟩ | ⟨log, rfl, he₃⟩ := he₂.of_cons
  · intro f hf
    rw [hi'] at hf
    exact List.mem_append_left _ (mem_transmits hf)
  obtain ⟨rfl, rfl⟩ | ⟨log, rfl, post, he₄⟩ := he₃.of_cons
  · intro f hf
    rw [hk'] at hf
    exact List.mem_append_left _ (List.mem_append_right _ (mem_transmits hf))
  · simp at he₄

/-- The box as it comes up. -/
def unitRises : SlaveInput × Planes := ({ ev := .phy true }, none)

/-- The first frame of the box. -/
def unitFrame : List UInt8 :=
  ((boxStation plainUnit).machine.step (slaveFsmInit plainUnit.cfg) unitRises).2.getD []

/-- The frame of the first slot of the desk. -/
def slotBytes : List UInt8 := ((deskStation deskEnv).machine.step (pacerOpen deskEnv deskCfg) (.slot, none)).2.getD []

/-- The run in which each hears the first frame of the other. -/
def exchange : List SegmentInput :=
  [.inr unitRises, .inl (.slot, none), .inl (.frame unitFrame, none), .inr ({ ev := .frame slotBytes }, none)]

theorem exchange_wire {log : List (Event (Duplex Pacer Slave (List UInt8)) SegmentInput (Option (List UInt8)))}
    {e : Event (Duplex Pacer Slave (List UInt8)) SegmentInput (Option (List UInt8))}
    (he : (segment deskEnv plainUnit).StepOf (segmentStart deskEnv deskCfg plainUnit) exchange log e) :
    Delivered (deskStation deskEnv) (boxStation plainUnit) e.pre e.input := by
  have hunit : ((boxStation plainUnit).machine.step (slaveFsmInit plainUnit.cfg) unitRises).2.isSome = true := by
    decide +kernel
  have hslot : ((deskStation deskEnv).machine.step (pacerOpen deskEnv deskCfg) (.slot, none)).2.isSome = true :=
    rfl
  have hsome : ∀ {o : Option (List UInt8)}, o.isSome = true → some (o.getD []) = o := by
    intro o ho
    obtain ⟨f, rfl⟩ := Option.isSome_iff_exists.mp ho
    rfl
  exact exchange_delivered rfl rfl (hsome hunit) (hsome hslot) he

theorem segment_recovers_exchange : ∃ js,
    (∀ log e, (segment deskEnv plainUnit).StepOf (segmentStart deskEnv deskCfg plainUnit) (exchange ++ js) log e →
      Delivered (deskStation deskEnv) (boxStation plainUnit) e.pre e.input) ∧
    Reunited deskMac plainUnit ⟨0x20, 16, by decide⟩ .r96000
      ((segment deskEnv plainUnit).run (segmentStart deskEnv deskCfg plainUnit) (exchange ++ js)) :=
  segment_recovers deskEnv deskCfg plainUnit _ plainUnit_placeable .r96000 exchange fun _ _ => exchange_wire

end Recovery

end Libreac
