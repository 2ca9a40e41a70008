import Libreac.Slave
import Libreac.Proofs.RxProofs
import Libreac.Proofs.SlaveFsmProofs

/-!
# Proofs: the counter on the slave's wire

Each step of the loop moves the counter by a known amount: by one where the state machine clocks
itself, to the master's counter plus the latched offset where the lock overrides it, and not at all
on a frame received while established. From that follows when one counter value is one wire frame.
-/

namespace Libreac

open Reactive

/-! ## What the state machine does to the counter -/

/-- The state machine sends nothing on this frame or tick. -/
def ReacFsm.silentOn (fsm : ReacFsm) (ev : FsmEvent) : Bool :=
  match fsm.state with
  | .phyDown => true
  | .floodAnnounce | .drop => false
  | .coldconnect => fsm.grantAck = 1 ∨ fsm.grantAck = 0 ∧ ev.isGrant = false ∧
      fsm.courtBudget ≤ fsm.coldconnectFrames
  | .backoff => 1 < fsm.backoff
  | .txMute => 1 < fsm.txmuteDwell
  | .established => match ev with
    | .rx p => fsm.haveMaster ∧ p.src ≠ fsm.masterMac ∧ isMasterFrame p.kind
    | _ => fsm.linkCheck ≤ 1

/-- What the state machine adds to the counter on this frame or tick. -/
def ReacFsm.counts (fsm : ReacFsm) (ev : FsmEvent) : ℕ :=
  match fsm.state with
  | .phyDown => 0
  | .floodAnnounce | .txMute | .drop => 1
  | .coldconnect | .backoff => if fsm.silentOn ev then 0 else 1
  | .established => match ev with
    | .rx _ => 0
    | _ => 1

/-- The frame is the known master's, or makes its source the known master. -/
def ReacFsm.hearsMaster (fsm : ReacFsm) (p : CtrlParsed) : Bool :=
  match fsm.state with
  | .floodAnnounce | .coldconnect => isMasterFrame p.kind ∨ fsm.haveMaster ∧ p.src = fsm.masterMac
  | .drop => false
  | _ => fsm.haveMaster ∧ p.src = fsm.masterMac

/-- The event is a frame or a tick. -/
def FsmEvent.Clocks (ev : FsmEvent) : Prop := ev ≠ .phyUp ∧ ev ≠ .phyDown

theorem reacFsmStep_counter {fsm : ReacFsm} {ev : FsmEvent} (hev : ev.Clocks)
    (hm : fsm.state = .coldconnect → fsm.haveMaster = true) :
    (reacFsmStep fsm ev).1.counter = fsm.counter + UInt16.ofNat (fsm.counts ev) ∧
      (reacFsmStep fsm ev).2.action.sends = !fsm.silentOn ev := by
  have hmove := reacFsmStep_move fsm ev
  generalize reacFsmStep fsm ev = r at hmove
  cases hmove with
  | linkDown => exact absurd rfl hev.2
  | linkUp => exact absurd rfl hev.1
  | muteHold => exact absurd rfl hev.1
  | dark hs => simp [ReacFsm.out, ReacFsm.counts, ReacFsm.silentOn, hs, FsmAction.sends]
  | earlyGrant hs hg =>
    simp [ReacFsm.counts, ReacFsm.silentOn, hs, FsmAction.sends, coldconnectTick, armColdconnect,
      learnMaster, ReacFsm.out]
  | flood hs _ hb | floodDone hs _ hb =>
    obtain ⟨mac, have', rfl, -⟩ := hb.eq
    simp [ReacFsm.counts, ReacFsm.silentOn, hs, FsmAction.sends, floodTick, armColdconnect,
      ReacFsm.out]
  | lost hs hb hm' =>
    obtain ⟨mac, have', heq, hkeep⟩ := coldconnectHears_eq fsm ev
    subst hb
    rw [heq] at hm'
    simp [hkeep (hm hs)] at hm'
  | acked hs hb _ ha =>
    obtain ⟨mac, have', heq, -⟩ := coldconnectHears_eq fsm ev
    subst hb
    rw [heq] at ha ⊢
    have hone : fsm.grantAck = 1 := by
      simp only [grantAckFrames] at ha
      split_ifs at ha <;> omega
    simp [ReacFsm.counts, ReacFsm.silentOn, hs, hone, FsmAction.sends, ReacFsm.out]
  | gaveUp hs hb _ ha hf =>
    obtain ⟨mac, have', heq, -⟩ := coldconnectHears_eq fsm ev
    subst hb
    rw [heq] at ha hf ⊢
    have hzero : fsm.grantAck = 0 ∧ ev.isGrant = false := by
      simp only [grantAckFrames] at ha
      split_ifs at ha with hg
      · omega
      · exact ⟨ha, by simpa [ha] using hg⟩
    have hbud : fsm.courtBudget ≤ fsm.coldconnectFrames := hf
    simp [ReacFsm.counts, ReacFsm.silentOn, hs, hzero, hbud, FsmAction.sends, ReacFsm.out]
  | court hs hb _ ha hf =>
    obtain ⟨mac, have', heq, -⟩ := coldconnectHears_eq fsm ev
    subst hb
    rw [heq] at ha hf ⊢
    have hsilent : fsm.silentOn ev = false := by
      simp only [ReacFsm.silentOn, hs, decide_eq_false_iff_not]
      rintro (h1 | ⟨h0, hg, hle⟩)
      · simp [h1] at ha
      · have hlt : fsm.coldconnectFrames < fsm.courtBudget :=
          hf (by simp [hg, h0])
        omega
    simp [ReacFsm.counts, hs, hsilent, FsmAction.sends, coldconnectTick, ReacFsm.out]
  | rest hs _ hb => simp [ReacFsm.counts, ReacFsm.silentOn, hs, hb, FsmAction.sends, ReacFsm.out]
  | rested hs hb =>
    have hb' : ¬ 1 < fsm.backoff := by omega
    simp [ReacFsm.counts, ReacFsm.silentOn, hs, hb', FsmAction.sends, floodTick, armFlood, ReacFsm.out]
  | mute hs hd => simp [ReacFsm.counts, ReacFsm.silentOn, hs, hd, FsmAction.sends, ReacFsm.out]
  | muted hs hd =>
    have hd' : ¬ 1 < fsm.txmuteDwell := by omega
    simp [ReacFsm.counts, ReacFsm.silentOn, hs, hd', FsmAction.sends, ReacFsm.out]
  | macChange hs hm hsrc hk =>
    simp [ReacFsm.counts, ReacFsm.silentOn, hs, hm, hsrc, hk, FsmAction.sends, ReacFsm.out]
  | @alive p hs hsrc hk =>
    have hquiet : ¬ (fsm.haveMaster = true ∧ p.src ≠ fsm.masterMac ∧ isMasterFrame p.kind = true) := by
      rintro ⟨hm, hne, -⟩
      exact hne (hsrc hm)
    simp [ReacFsm.counts, ReacFsm.silentOn, hs, audioOne_fst, audioOne_out, FsmAction.sends, hquiet]
  | @audio p hs hsrc hk =>
    have hquiet : ¬ (fsm.haveMaster = true ∧ p.src ≠ fsm.masterMac ∧ isMasterFrame p.kind = true) := by
      rintro ⟨hm, hne, hk⟩
      simp [hsrc hm hne] at hk
    simp [ReacFsm.counts, ReacFsm.silentOn, hs, audioOne_fst, audioOne_out, FsmAction.sends, hquiet]
  | peerGone hs hr hl =>
    cases ev with
    | rx p => exact absurd rfl (hr p)
    | phyUp => exact absurd rfl hev.1
    | phyDown => exact absurd rfl hev.2
    | tick => simp [ReacFsm.counts, ReacFsm.silentOn, hs, hl, FsmAction.sends, ReacFsm.out]
  | audioTick hs hr hl =>
    have hl' : ¬ fsm.linkCheck ≤ 1 := by omega
    cases ev with
    | rx p => exact absurd rfl (hr p)
    | phyUp => exact absurd rfl hev.1
    | phyDown => exact absurd rfl hev.2
    | tick =>
      simp [ReacFsm.counts, ReacFsm.silentOn, hs, hl', audioOne_fst, audioOne_out, FsmAction.sends]
  | announce hs =>
    simp [ReacFsm.counts, ReacFsm.silentOn, hs, FsmAction.sends, floodTick, armFlood, ReacFsm.out]

/-- The master the slave knows after a frame. -/
def ReacFsm.masterAfter (fsm : ReacFsm) (p : CtrlParsed) : ReacFsm :=
  match fsm.state with
  | .floodAnnounce | .coldconnect => heardMaster fsm p
  | .drop => { fsm with haveMaster := false }
  | _ => fsm

theorem reacFsmStep_master (fsm : ReacFsm) (p : CtrlParsed) :
    (reacFsmStep fsm (.rx p)).1.haveMaster = (fsm.masterAfter p).haveMaster ∧
      (reacFsmStep fsm (.rx p)).1.masterMac = (fsm.masterAfter p).masterMac := by
  cases hs : fsm.state with
  | phyDown => simp [reacFsmStep, hs, ReacFsm.masterAfter, ReacFsm.out]
  | drop => simp [reacFsmStep, hs, ReacFsm.masterAfter, floodTick, armFlood, ReacFsm.out]
  | floodAnnounce =>
    simp only [reacFsmStep, hs, stepFlood, floodOne, ReacFsm.masterAfter]
    split_ifs <;> exact ⟨rfl, rfl⟩
  | coldconnect =>
    have hc : (coldconnectHears fsm (.rx p)).haveMaster = (heardMaster fsm p).haveMaster ∧
        (coldconnectHears fsm (.rx p)).masterMac = (heardMaster fsm p).masterMac := by
      simp only [coldconnectHears]
      split_ifs <;> exact ⟨rfl, rfl⟩
    simp only [reacFsmStep, hs, courtOne, ReacFsm.masterAfter, ← hc.1, ← hc.2]
    split_ifs <;> exact ⟨rfl, rfl⟩
  | backoff =>
    simp only [reacFsmStep, hs, stepBackoff, ReacFsm.masterAfter]
    split_ifs <;> exact ⟨rfl, rfl⟩
  | txMute =>
    simp only [reacFsmStep, hs, stepTxMute, muteOne, ReacFsm.masterAfter]
    split_ifs <;> exact ⟨rfl, rfl⟩
  | established =>
    simp only [reacFsmStep, hs, stepEstablished, establishedRx, ReacFsm.masterAfter]
    split_ifs <;> simp [audioOne_fst, ReacFsm.out]

/-- After a frame its source is the known master exactly if it was heard as the master. -/
theorem reacFsmStep_hears (fsm : ReacFsm) (p : CtrlParsed) :
    (reacFsmStep fsm (.rx p)).1.haveMaster = true ∧ p.src = (reacFsmStep fsm (.rx p)).1.masterMac ↔
      fsm.hearsMaster p = true := by
  obtain ⟨hhave, hmac⟩ := reacFsmStep_master fsm p
  rw [hhave, hmac]
  by_cases hk : isMasterFrame p.kind = true <;> cases hs : fsm.state <;>
    simp [ReacFsm.masterAfter, ReacFsm.hearsMaster, hs, heardMaster, hk, learnMaster]

/-- A new master is known only through a frame heard as its. -/
theorem reacFsmStep_learns {fsm : ReacFsm} {p : CtrlParsed}
    (h : (reacFsmStep fsm (.rx p)).1.haveMaster = true) :
    fsm.haveMaster = true ∨ p.src = (reacFsmStep fsm (.rx p)).1.masterMac := by
  obtain ⟨hhave, hmac⟩ := reacFsmStep_master fsm p
  rw [hhave] at h
  rw [hmac]
  by_cases hk : isMasterFrame p.kind = true <;> cases hs : fsm.state <;>
    simp_all [ReacFsm.masterAfter, heardMaster, learnMaster]

/-- A master is known wherever the slave courts, settles or streams. -/
def ReacFsm.KnowsMaster (fsm : ReacFsm) : Prop :=
  fsm.state = .coldconnect ∨ fsm.state = .txMute ∨ fsm.state = .established → fsm.haveMaster = true

theorem ReacFsm.KnowsMaster.step {fsm : ReacFsm} (h : fsm.KnowsMaster) (ev : FsmEvent) :
    (reacFsmStep fsm ev).1.KnowsMaster := by
  have hmove := reacFsmStep_move fsm ev
  generalize reacFsmStep fsm ev = r at hmove
  cases hmove with
  | flood hs _ hb =>
    obtain ⟨mac, have', rfl, -⟩ := hb.eq
    simp [KnowsMaster, floodTick, ReacFsm.out, hs]
  | floodDone _ _ hb hm =>
    intro _
    exact hm
  | court hs hb hm =>
    intro _
    exact hm
  | acked _ hb hm =>
    intro _
    exact hm
  | _ =>
    simp_all [KnowsMaster, ReacFsm.out, floodTick, armFlood, coldconnectTick, armColdconnect,
      learnMaster, audioOne_fst]

/-! ## What one pass of the loop does to the counter -/

/-- The slaves differ at most in the length of the flood and in what the next frames carry. -/
structure SameLink (s s' : Slave) : Prop where
  fsm : ∃ n, s'.fsm = { s.fsm with floodFrames := n }
  up : s'.phyUpSeen = s.phyUpSeen
  offset : s'.counterOffset = s.counterOffset
  locked : s'.counterLocked = s.counterLocked

theorem SameLink.refl (s : Slave) : SameLink s s := ⟨⟨_, rfl⟩, rfl, rfl, rfl⟩

theorem SameLink.trans {s s' s'' : Slave} (h : SameLink s s') (h' : SameLink s' s'') :
    SameLink s s'' := by
  obtain ⟨⟨n, h1⟩, h2, h3, h4⟩ := h
  obtain ⟨⟨n', h1'⟩, h2', h3', h4'⟩ := h'
  exact ⟨⟨n', by rw [h1', h1]⟩, h2'.trans h2, h3'.trans h3, h4'.trans h4⟩

theorem slaveHeadampRx_same (cfg : SlaveCfg) (s : Slave) (p : CtrlParsed) :
    SameLink s (slaveHeadampRx cfg s p) := by
  unfold slaveHeadampRx
  dsimp only
  split_ifs <;> exact ⟨⟨_, rfl⟩, rfl, rfl, rfl⟩

theorem bmHears_same (cfg : SlaveCfg) (s : Slave) (p : CtrlParsed) (now : UInt64) :
    SameLink s (bmHears cfg s p now) := by
  unfold bmHears
  dsimp only
  split_ifs <;> exact ⟨⟨_, rfl⟩, rfl, rfl, rfl⟩

theorem bmSpeak_same (s : Slave) : SameLink s (bmSpeak s) := by
  unfold bmSpeak
  split_ifs <;> exact ⟨⟨_, rfl⟩, rfl, rfl, rfl⟩

theorem bmPresilent_same (cfg : SlaveCfg) (s : Slave) (now : UInt64) :
    SameLink s (bmPresilent cfg s now).1 := by
  have hopen : SameLink s { s with bm := bmOpen s.bm now } := ⟨⟨_, rfl⟩, rfl, rfl, rfl⟩
  simp only [bmPresilent]
  cases bmListens cfg (bmOpen s.bm now) now with
  | true => exact hopen
  | false => exact hopen.trans (bmSpeak_same _)

theorem emitDesk_wire (cfg : SlaveCfg) (s : Slave) (d : SlaveDecision) :
    SameLink s (emitDesk cfg s d).1 ∧
      ∀ f ∈ (emitDesk cfg s d).2, f.counter = s.fsm.counter ∧ d.emit ≠ .none := by
  unfold emitDesk
  cases hd : d.emit with
  | none => exact ⟨.refl s, by simp⟩
  | coldconnect =>
    dsimp only
    split_ifs with hj hb hb <;> refine ⟨⟨⟨_, rfl⟩, rfl, rfl, rfl⟩, ?_⟩ <;> simp
  | floodFiller | upstreamAudio | heartbeat =>
    dsimp only
    split_ifs <;> refine ⟨.refl s, ?_⟩ <;> simp

theorem bmFrame_counter {cfg : SlaveCfg} {s : Slave} {d : SlaveDecision} {r : Option SlaveRecord}
    {f : SlaveFrame} (hf : f ∈ bmFrame cfg s d r) : f.counter = s.fsm.counter := by
  simp only [bmFrame, Option.mem_def, Option.ite_none_right_eq_some, Option.some.injEq] at hf
  obtain ⟨-, rfl⟩ := hf
  rfl

theorem emitBoxMaster_wire (cfg : SlaveCfg) (s : Slave) (d : SlaveDecision) (now : UInt64) :
    SameLink s (emitBoxMaster cfg s d now).1 ∧
      ∀ f ∈ (emitBoxMaster cfg s d now).2, f.counter = s.fsm.counter := by
  have hsame := bmPresilent_same cfg s now
  simp only [emitBoxMaster]
  generalize bmPresilent cfg s now = r at hsame ⊢
  obtain ⟨s', silent⟩ := r
  cases silent with
  | true => exact ⟨hsame, by simp⟩
  | false =>
    generalize bmControl cfg s'.bm d now = c
    obtain ⟨n, hfsm⟩ := hsame.fsm
    refine ⟨hsame.trans ⟨⟨_, rfl⟩, rfl, rfl, rfl⟩, ?_⟩
    intro f hf
    have hcount := bmFrame_counter hf
    rw [hcount, hfsm]

/-- A frame on the wire carries the counter of the state machine, and stands for a decision. -/
theorem slaveEmit_wire (cfg : SlaveCfg) (s : Slave) (d : SlaveDecision) (i : SlaveInput) :
    SameLink s (slaveEmit cfg s d i).1 ∧
      ∀ f ∈ (slaveEmit cfg s d i).2, f.counter = s.fsm.counter ∧ d.emit ≠ .none := by
  have hemit : SameLink s (emitDecision cfg s d i.now).1 ∧
      ∀ f ∈ (emitDecision cfg s d i.now).2, f.counter = s.fsm.counter ∧ d.emit ≠ .none := by
    unfold emitDecision
    split_ifs with h
    · obtain ⟨hsame, hcount⟩ := emitBoxMaster_wire cfg s d i.now
      exact ⟨hsame, fun f hf => ⟨hcount f hf, h.2⟩⟩
    · exact emitDesk_wire cfg s d
  refine ⟨hemit.1, ?_⟩
  intro f hf
  refine hemit.2 f ?_
  simp only [slaveEmit] at hf
  split_ifs at hf
  · exact hf
  · cases hf

theorem mapAction_emits (o : FsmOut) : (mapAction o).emit ≠ .none ↔ o.action.sends = true := by
  cases h : o.action <;> simp [mapAction, h, FsmAction.sends]

/-- The event a pass of the loop hands to the state machine, if it is a frame or a timeout. -/
def SlaveInput.clock (cfg : SlaveCfg) (i : SlaveInput) : Option FsmEvent :=
  match i.ev with
  | .phy _ => none
  | .idle => some .tick
  | .frame bytes =>
    if frameIsReac bytes ∧ (ctrlParse bytes).src ≠ cfg.src then some (.rx (ctrlParse bytes)) else none

/-- How far a pass of the loop moves the counter. -/
def Slave.advance (cfg : SlaveCfg) (s : Slave) (i : SlaveInput) : ℕ :=
  match i.clock cfg with
  | none => 0
  | some (.rx p) =>
    if s.counterLocked ∧ s.fsm.hearsMaster p then
      (p.counter + s.counterOffset - s.fsm.counter).toNat
    else s.fsm.counts (.rx p)
  | some ev => s.fsm.counts ev

/-- The link is up after every step that knows a master, and the offset is latched with the first
frame of a master. -/
structure SlaveOk (s : Slave) : Prop where
  knows : s.fsm.KnowsMaster
  locked : s.fsm.haveMaster = true → s.counterLocked = true
  down : s.phyUpSeen = false → s.fsm.state = .phyDown ∧ s.fsm.haveMaster = false

theorem SlaveOk.same {s s' : Slave} (h : SlaveOk s) (hsame : SameLink s s') : SlaveOk s' := by
  obtain ⟨n, hfsm⟩ := hsame.fsm
  refine ⟨?_, ?_, ?_⟩
  · intro hs
    rw [hfsm] at hs ⊢
    exact h.knows hs
  · intro hm
    rw [hfsm] at hm
    rw [hsame.locked]
    exact h.locked hm
  · intro hup
    rw [hsame.up] at hup
    rw [hfsm]
    exact h.down hup

/-- The lock names the counter of a frame that is heard as the master's. -/
theorem counterLock_counter (s : Slave) (p : CtrlParsed) :
    (counterLock s p).fsm.counter =
      if s.fsm.haveMaster = true ∧ p.src = s.fsm.masterMac ∧ s.counterLocked = true then
        p.counter + s.counterOffset
      else s.fsm.counter := by
  unfold counterLock
  by_cases hm : s.fsm.haveMaster = true ∧ p.src = s.fsm.masterMac
  · rw [if_pos hm]
    by_cases hl : s.counterLocked = true
    · rw [if_pos hl, if_pos ⟨hm.1, hm.2, hl⟩]
    · rw [if_neg hl, if_neg (fun h => hl h.2.2)]
      show p.counter + (s.fsm.counter - p.counter) = s.fsm.counter
      grind
  · rw [if_neg hm, if_neg (fun h => hm ⟨h.1, h.2.1⟩)]

theorem counterLock_ok {s : Slave} (p : CtrlParsed) (hk : s.fsm.KnowsMaster)
    (hl : s.fsm.haveMaster = true → s.counterLocked = true ∨ p.src = s.fsm.masterMac)
    (hd : s.phyUpSeen = false → s.fsm.state = .phyDown ∧ s.fsm.haveMaster = false) :
    SlaveOk (counterLock s p) := by
  unfold counterLock
  by_cases hm : s.fsm.haveMaster = true ∧ p.src = s.fsm.masterMac
  · rw [if_pos hm]
    exact ⟨hk, fun _ => rfl, hd⟩
  · rw [if_neg hm]
    refine ⟨hk, ?_, hd⟩
    intro hm'
    rcases hl hm' with h | h
    · exact h
    · exact absurd ⟨hm', h⟩ hm

/-- What a pass of the loop that clocks the state machine does. -/
structure Clocked (cfg : SlaveCfg) (s : Slave) (i : SlaveInput) (ev : FsmEvent)
    (r : Slave × Option SlaveFrame) : Prop where
  ok : SlaveOk r.1
  counter : r.1.fsm.counter = s.fsm.counter + UInt16.ofNat (s.advance cfg i)
  sent : ∀ f ∈ r.2, f.counter = r.1.fsm.counter ∧ s.fsm.silentOn ev = false

theorem SameLink.counter {s s' : Slave} (h : SameLink s s') : s'.fsm.counter = s.fsm.counter := by
  obtain ⟨n, hfsm⟩ := h.fsm
  rw [hfsm]

theorem slaveStep_down {s : Slave} {ev : FsmEvent} (h : SlaveOk s) (hev : ev.Clocks)
    (hup : s.phyUpSeen = false) :
    (reacFsmStep s.fsm ev).1.state = .phyDown ∧ (reacFsmStep s.fsm ev).1.haveMaster = false := by
  obtain ⟨hs, hm⟩ := h.down hup
  cases ev with
  | phyUp => exact absurd rfl hev.1
  | phyDown => exact absurd rfl hev.2
  | rx p | tick => simp [reacFsmStep, hs, hm, ReacFsm.out]

/-- A tick keeps the known master. -/
theorem reacFsmStep_tick_master {fsm : ReacFsm} (h : (reacFsmStep fsm .tick).1.haveMaster = true) :
    fsm.haveMaster = true := by
  have hmove := reacFsmStep_move fsm .tick
  generalize reacFsmStep fsm .tick = r at hmove h
  cases hmove with
  | flood _ _ hb | floodDone _ _ hb =>
    cases hb with
    | nothing => exact h
  | lost _ hb hm => exact absurd (h.symm.trans hm) (by simp)
  | acked _ hb | gaveUp _ hb | court _ hb =>
    subst hb
    exact h
  | announce => cases h
  | audioTick => simpa [audioOne_fst] using h
  | _ => exact h

theorem slaveLoop_idle {cfg : SlaveCfg} {s : Slave} {i : SlaveInput} (h : SlaveOk s)
    (hi : i.ev = .idle) : Clocked cfg s i .tick (slaveLoop cfg s i) := by
  have hev : FsmEvent.Clocks .tick := ⟨by simp, by simp⟩
  obtain ⟨hcount, hsends⟩ := reacFsmStep_counter hev fun hs => h.knows (.inl hs)
  have hadv : s.advance cfg i = s.fsm.counts .tick := by
    simp [Slave.advance, SlaveInput.clock, hi]
  simp only [slaveLoop, hi, slaveStep]
  obtain ⟨hsame, hwire⟩ := slaveEmit_wire cfg { s with fsm := (reacFsmStep s.fsm .tick).1 }
    (mapAction (reacFsmStep s.fsm .tick).2) i
  refine ⟨SlaveOk.same ?_ hsame, ?_, ?_⟩
  · exact ⟨h.knows.step _, fun hm => h.locked (reacFsmStep_tick_master hm), slaveStep_down h hev⟩
  · rw [hsame.counter, hadv]
    exact hcount
  · intro f hf
    obtain ⟨hf1, hf2⟩ := hwire f hf
    refine ⟨hf1.trans hsame.counter.symm, ?_⟩
    rw [mapAction_emits, hsends] at hf2
    simpa using hf2

/-- The state machine a frame is handed to: the head-amp record and what a stagebox master tells
have been taken in before. -/
theorem slaveRx_eq (cfg : SlaveCfg) (s : Slave) {bytes : List UInt8} {i : SlaveInput}
    (hreac : frameIsReac bytes = true) (hsrc : (ctrlParse bytes).src ≠ cfg.src) :
    ∃ s₁, SameLink s s₁ ∧ slaveRx cfg s bytes i =
      slaveEmit cfg (counterLock (slaveStep s₁ (.rx (ctrlParse bytes))).1 (ctrlParse bytes))
        (slaveStep s₁ (.rx (ctrlParse bytes))).2 i := by
  have hhead : SameLink s (if (ctrlParse bytes).kind = .headamp ∧ headampRecordVerify bytes = true then
      slaveHeadampRx cfg s (ctrlParse bytes) else s) := by
    split_ifs
    · exact slaveHeadampRx_same cfg s _
    · exact .refl s
  refine ⟨_, hhead.trans (bmHears_same cfg _ (ctrlParse bytes) i.now), ?_⟩
  simp only [slaveRx, hreac, hsrc, Bool.not_true, Bool.false_eq_true, if_false]

theorem slaveLoop_frame {cfg : SlaveCfg} {s : Slave} {i : SlaveInput} {bytes : List UInt8}
    (h : SlaveOk s) (hi : i.ev = .frame bytes) (hreac : frameIsReac bytes = true)
    (hsrc : (ctrlParse bytes).src ≠ cfg.src) :
    Clocked cfg s i (.rx (ctrlParse bytes)) (slaveLoop cfg s i) := by
  obtain ⟨s₁, hsame₁, heq⟩ := slaveRx_eq cfg s (i := i) hreac hsrc
  generalize hp : ctrlParse bytes = p at heq hsrc ⊢
  have hev : FsmEvent.Clocks (.rx p) := ⟨by simp, by simp⟩
  have h₁ := h.same hsame₁
  obtain ⟨n, hfsm₁⟩ := hsame₁.fsm
  obtain ⟨hcount, hsends⟩ := reacFsmStep_counter hev fun hs => h₁.knows (.inl hs)
  have hadv : s.advance cfg i = if s.counterLocked ∧ s.fsm.hearsMaster p then
      (p.counter + s.counterOffset - s.fsm.counter).toNat else s.fsm.counts (.rx p) := by
    simp [Slave.advance, SlaveInput.clock, hi, hreac, hp, hsrc]
  have hloop : slaveLoop cfg s i = slaveRx cfg s bytes i := by simp only [slaveLoop, hi]
  rw [hloop, heq]
  obtain ⟨hsame, hwire⟩ := slaveEmit_wire cfg (counterLock (slaveStep s₁ (.rx p)).1 p)
    (slaveStep s₁ (.rx p)).2 i
  refine ⟨SlaveOk.same ?_ hsame, ?_, ?_⟩
  · refine counterLock_ok p (h₁.knows.step (.rx p)) ?_ (slaveStep_down h₁ hev)
    intro hm
    exact (reacFsmStep_learns hm).imp_left h₁.locked
  · rw [hsame.counter, counterLock_counter, hadv]
    have hhears := reacFsmStep_hears s₁.fsm p
    have hhears' : s₁.fsm.hearsMaster p = s.fsm.hearsMaster p := by rw [hfsm₁]; rfl
    have hcounts : s₁.fsm.counts (.rx p) = s.fsm.counts (.rx p) := by rw [hfsm₁]; rfl
    have hlocked : (slaveStep s₁ (.rx p)).1.counterLocked = s.counterLocked := hsame₁.locked
    have hoffset : (slaveStep s₁ (.rx p)).1.counterOffset = s.counterOffset := hsame₁.offset
    have hfsm : (slaveStep s₁ (.rx p)).1.fsm = (reacFsmStep s₁.fsm (.rx p)).1 := rfl
    by_cases hlock : s.counterLocked = true ∧ s.fsm.hearsMaster p = true
    · obtain ⟨hm, hmac⟩ := hhears.mpr (hhears'.trans hlock.2)
      rw [if_pos ⟨hm, hmac, hlocked.trans hlock.1⟩, if_pos hlock, hoffset]
      rw [UInt16.ofNat_toNat]
      grind
    · rw [if_neg hlock, if_neg ?_, hfsm, hcount, hcounts, hsame₁.counter]
      rintro ⟨hm, hmac, hl⟩
      exact hlock ⟨hlocked.symm.trans hl, hhears'.symm.trans (hhears.mp ⟨hm, hmac⟩)⟩
  · intro f hf
    obtain ⟨hf1, hf2⟩ := hwire f hf
    refine ⟨hf1.trans hsame.counter.symm, ?_⟩
    have hsilent : s₁.fsm.silentOn (.rx p) = s.fsm.silentOn (.rx p) := by rw [hfsm₁]; rfl
    rw [slaveStep, mapAction_emits, hsends, hsilent] at hf2
    simpa using hf2

/-- A pass that clocks nothing, a change of the link apart, leaves the counter and the wire alone. -/
theorem slaveLoop_deaf {cfg : SlaveCfg} {s : Slave} {i : SlaveInput} (hc : i.clock cfg = none)
    (hphy : ∀ want, i.ev = .phy want → want = s.phyUpSeen) :
    SameLink s (slaveLoop cfg s i).1 ∧ (slaveLoop cfg s i).2 = none := by
  cases hi : i.ev with
  | phy want =>
    simp only [slaveLoop, hi, hphy want hi, if_true]
    exact ⟨.refl s, trivial⟩
  | idle => simp [SlaveInput.clock, hi] at hc
  | frame bytes =>
    simp only [slaveLoop, hi, slaveRx]
    by_cases hreac : frameIsReac bytes = true
    · have hsrc : (ctrlParse bytes).src = cfg.src := by
        by_contra hne
        simp [SlaveInput.clock, hi, hreac, hne] at hc
      simp only [hreac, hsrc, Bool.not_true, Bool.false_eq_true, if_false, if_true, and_true]
      split_ifs
      · exact slaveHeadampRx_same cfg s _
      · exact .refl s
    · simp only [hreac, Bool.not_false, if_true, and_true]
      exact .refl s

theorem slaveLoop_linkDown (cfg : SlaveCfg) {s : Slave} {i : SlaveInput}
    (hi : i.ev = .phy false) (hup : s.phyUpSeen = true) :
    SlaveOk (slaveLoop cfg s i).1 ∧ (slaveLoop cfg s i).1.fsm.counter = s.fsm.counter ∧
      (slaveLoop cfg s i).2 = none := by
  simp only [slaveLoop, hi, hup, Bool.false_eq_true, if_false, slaveStep, reacFsmStep, ReacFsm.out]
  refine ⟨⟨?_, ?_, ?_⟩, trivial, trivial⟩
  · simp [ReacFsm.KnowsMaster]
  · simp
  · simp

theorem slaveLoop_linkUp {cfg : SlaveCfg} {s : Slave} {i : SlaveInput} (h : SlaveOk s)
    (hi : i.ev = .phy true) (hdown : s.phyUpSeen = false) :
    SlaveOk (slaveLoop cfg s i).1 ∧
      ∀ f ∈ (slaveLoop cfg s i).2, f.counter = (slaveLoop cfg s i).1.fsm.counter := by
  obtain ⟨hs, hm⟩ := h.down hdown
  simp only [slaveLoop, hi, hdown, slaveStep]
  obtain ⟨hsame, hwire⟩ := slaveEmit_wire cfg
    { s with
      fsm := (reacFsmStep s.fsm .phyUp).1, phyUpSeen := true, counterLocked := false }
    (mapAction (reacFsmStep s.fsm .phyUp).2) i
  refine ⟨SlaveOk.same ⟨h.knows.step _, ?_, by simp⟩ hsame, ?_⟩
  · intro hm'
    simp [reacFsmStep, hs, floodTick, armFlood, ReacFsm.out, hm] at hm'
  · intro f hf
    exact (hwire f hf).1.trans hsame.counter.symm

/-! ## One counter value, one wire frame -/

/-- A step of the slave engine. -/
abbrev SlaveStepped := Event Slave SlaveInput (Option SlaveFrame)

/-- The step brings the link up. -/
def linkUp (e : SlaveStepped) : Bool :=
  match e.input.ev with
  | .phy want => want && !e.pre.phyUpSeen
  | _ => false

/-- The counters of the frames on the wire since the link came up. -/
def wire (log : List SlaveStepped) : List UInt16 :=
  (fromLast linkUp log).filterMap fun e => e.out.map (·.counter)

/-- The step puts a frame on the wire, or brings the link up. -/
def speaks (e : SlaveStepped) : Bool := e.out.isSome || linkUp e

/-- How far the counter has moved since the last frame on the wire. -/
def unheard (cfg : SlaveCfg) (log : List SlaveStepped) : ℕ :=
  (sinceLast speaks log).foldl (fun n e => n + e.pre.advance cfg e.input) 0

/-- A step of an orderly wire. A frame of a source that is not the known master comes only where the
slave is silent; a frame heard as the master's takes the locked counter ahead; and not more than
half of the counter's range goes by between two frames. -/
structure Orderly (cfg : SlaveCfg) (log : List SlaveStepped) (e : SlaveStepped) : Prop where
  foreign : ∀ p, e.input.clock cfg = some (.rx p) → e.pre.fsm.haveMaster = true →
    p.src ≠ e.pre.fsm.masterMac → e.pre.fsm.silentOn (.rx p) = true
  ahead : ∀ p, e.input.clock cfg = some (.rx p) → e.pre.counterLocked = true →
    e.pre.fsm.hearsMaster p = true →
    counterAhead e.pre.fsm.counter (p.counter + e.pre.counterOffset) = true
  fresh : unheard cfg log + e.pre.advance cfg e.input ≤ 0x8000

/-- The counters of the wire advance, and the counter of the state machine is the last one sent plus
what has gone by unheard since. -/
structure WireInv (cfg : SlaveCfg) (log : List SlaveStepped) (s : Slave) : Prop where
  ok : SlaveOk s
  chain : (wire log).IsChain fun a b => counterAhead a b = true
  last : ∀ c ∈ (wire log).getLast?, s.fsm.counter = c + UInt16.ofNat (unheard cfg log)

theorem wire_concat (log : List SlaveStepped) {e : SlaveStepped} (he : linkUp e = false) :
    wire (log ++ [e]) = wire log ++ (e.out.map (·.counter)).toList := by
  rw [wire, fromLast_concat, if_neg (by simp [he]), List.filterMap_append]
  cases h : e.out <;> simp [wire, h]

theorem unheard_concat (cfg : SlaveCfg) (log : List SlaveStepped) (e : SlaveStepped) :
    unheard cfg (log ++ [e]) =
      if speaks e then 0 else unheard cfg log + e.pre.advance cfg e.input := by
  rw [unheard, sinceLast_concat]
  split_ifs <;> simp [unheard, List.foldl_append]

/-- A counter that has moved by one step at least and by half its range at most is ahead. -/
theorem counterAhead_add (c : UInt16) {n : ℕ} (h1 : 1 ≤ n) (h2 : n ≤ 0x8000) :
    counterAhead c (c + UInt16.ofNat n) = true := by
  have hgap : c + UInt16.ofNat n - c - 1 = UInt16.ofNat (n - 1) := by
    have hn : UInt16.ofNat n = UInt16.ofNat (n - 1) + 1 := by
      conv_lhs => rw [show n = n - 1 + 1 by omega, UInt16.ofNat_add]
      rfl
    rw [hn]
    grind
  have hhalf : UInt16.toNat 0x8000 = 0x8000 := rfl
  rw [counterAhead, counterGap, hgap]
  simp only [decide_eq_true_eq, UInt16.lt_iff_toNat_lt, UInt16.toNat_ofNat', hhalf]
  omega

/-- On an orderly wire a frame takes a counter value of its own. -/
theorem sends_advances {cfg : SlaveCfg} {s : Slave} {i : SlaveInput} {ev : FsmEvent} (h : SlaveOk s)
    (hclock : i.clock cfg = some ev) (hsilent : s.fsm.silentOn ev = false)
    (hforeign : ∀ p, ev = .rx p → s.fsm.haveMaster = true → p.src ≠ s.fsm.masterMac →
      s.fsm.silentOn (.rx p) = true)
    (hahead : ∀ p, ev = .rx p → s.counterLocked = true → s.fsm.hearsMaster p = true →
      counterAhead s.fsm.counter (p.counter + s.counterOffset) = true) :
    1 ≤ s.advance cfg i := by
  have hcounts (hs : s.fsm.state ≠ .established) : s.fsm.counts ev = 1 := by
    cases hst : s.fsm.state with
    | established => exact absurd hst hs
    | phyDown => simp [ReacFsm.silentOn, hst] at hsilent
    | _ => simp [ReacFsm.counts, hst, hsilent]
  cases ev with
  | phyUp => simp [SlaveInput.clock] at hclock; split at hclock <;> simp at hclock
  | phyDown => simp [SlaveInput.clock] at hclock; split at hclock <;> simp at hclock
  | tick =>
    simp only [Slave.advance, hclock]
    cases hst : s.fsm.state with
    | established => simp [ReacFsm.counts, hst]
    | _ => exact (hcounts (by simp [hst])).ge
  | rx p =>
    simp only [Slave.advance, hclock]
    by_cases hl : s.counterLocked = true ∧ s.fsm.hearsMaster p = true
    · rw [if_pos hl]
      have hahead := hahead p rfl hl.1 hl.2
      by_contra hzero
      have hz : (p.counter + s.counterOffset - s.fsm.counter).toNat = 0 := by omega
      have heq : p.counter + s.counterOffset = s.fsm.counter := by
        have := UInt16.toNat_inj.mp (hz.trans (show 0 = UInt16.toNat 0 from rfl))
        grind
      rw [heq, counterAhead_self] at hahead
      cases hahead
    · rw [if_neg hl]
      refine (hcounts ?_).ge
      -- While established the master is known and locked, so only a foreign frame gets here.
      intro hst
      have hm := h.knows (.inr (.inr hst))
      have hsrc : p.src ≠ s.fsm.masterMac := by
        intro heq
        exact hl ⟨h.locked hm, by simp [ReacFsm.hearsMaster, hst, hm, heq]⟩
      rw [hforeign p rfl hm hsrc] at hsilent
      cases hsilent

theorem WireInv.clocked {cfg : SlaveCfg} {log : List SlaveStepped} {s : Slave} {i : SlaveInput}
    {ev : FsmEvent} (h : WireInv cfg log s) (hclock : i.clock cfg = some ev)
    (hc : Clocked cfg s i ev (slaveLoop cfg s i))
    (ho : Orderly cfg log ((slaveMachine cfg).event s i)) :
    WireInv cfg (log ++ [(slaveMachine cfg).event s i]) (slaveLoop cfg s i).1 := by
  have hnot : linkUp ((slaveMachine cfg).event s i) = false := by
    cases hi : i.ev with
    | phy want => simp [SlaveInput.clock, hi] at hclock
    | idle | frame bytes => simp [linkUp, hi]
  have hfresh : unheard cfg log + s.advance cfg i ≤ 0x8000 := ho.fresh
  cases hf : (slaveLoop cfg s i).2 with
  | none =>
    have hwire : wire (log ++ [(slaveMachine cfg).event s i]) = wire log := by
      simp [wire_concat log hnot, hf]
    have hun : unheard cfg (log ++ [(slaveMachine cfg).event s i]) =
        unheard cfg log + s.advance cfg i := by
      simp [unheard_concat, speaks, hf, hnot]
    refine ⟨hc.ok, by rw [hwire]; exact h.chain, ?_⟩
    intro c hmem
    rw [hwire] at hmem
    rw [hc.counter, h.last c hmem, hun, UInt16.ofNat_add]
    grind
  | some f =>
    obtain ⟨hcount, hsilent⟩ := hc.sent f hf
    have hone := sends_advances h.ok hclock hsilent
      (fun p hp => ho.foreign p (by rw [← hp]; exact hclock))
      (fun p hp => ho.ahead p (by rw [← hp]; exact hclock))
    have hwire : wire (log ++ [(slaveMachine cfg).event s i]) = wire log ++ [f.counter] := by
      simp [wire_concat log hnot, hf]
    have hun : unheard cfg (log ++ [(slaveMachine cfg).event s i]) = 0 := by
      simp [unheard_concat, speaks, hf]
    refine ⟨hc.ok, ?_, ?_⟩
    · rw [hwire, List.isChain_append]
      refine ⟨h.chain, List.isChain_singleton _, ?_⟩
      intro c hmem b hb
      obtain rfl : f.counter = b := by simpa using hb
      have hsum : f.counter = c + UInt16.ofNat (unheard cfg log + s.advance cfg i) := by
        rw [hcount, hc.counter, h.last c hmem, UInt16.ofNat_add]
        grind
      rw [hsum]
      exact counterAhead_add c (by omega) hfresh
    · intro c hmem
      rw [hwire, List.getLast?_concat] at hmem
      obtain rfl : f.counter = c := by simpa using hmem
      rw [hun, hcount]
      simp

/-- A step that leaves the counter and the wire alone. -/
theorem WireInv.quiet {cfg : SlaveCfg} {log : List SlaveStepped} {s : Slave} {i : SlaveInput}
    (h : WireInv cfg log s) (hclock : i.clock cfg = none)
    (hnot : linkUp ((slaveMachine cfg).event s i) = false) (hok : SlaveOk (slaveLoop cfg s i).1)
    (hcount : (slaveLoop cfg s i).1.fsm.counter = s.fsm.counter) (hf : (slaveLoop cfg s i).2 = none) :
    WireInv cfg (log ++ [(slaveMachine cfg).event s i]) (slaveLoop cfg s i).1 := by
  have hwire : wire (log ++ [(slaveMachine cfg).event s i]) = wire log := by
    simp [wire_concat log hnot, hf]
  have hun : unheard cfg (log ++ [(slaveMachine cfg).event s i]) = unheard cfg log := by
    simp [unheard_concat, speaks, hf, hnot, Slave.advance, hclock]
  refine ⟨hok, by rw [hwire]; exact h.chain, ?_⟩
  intro c hmem
  rw [hwire] at hmem
  rw [hcount, hun]
  exact h.last c hmem

/-- With the link the wire begins afresh. -/
theorem WireInv.fresh {cfg : SlaveCfg} {log : List SlaveStepped} {s : Slave} {i : SlaveInput}
    (h : WireInv cfg log s) (hi : i.ev = .phy true) (hdown : s.phyUpSeen = false) :
    WireInv cfg (log ++ [(slaveMachine cfg).event s i]) (slaveLoop cfg s i).1 := by
  obtain ⟨hok, hcount⟩ := slaveLoop_linkUp h.ok hi hdown
  have hup : linkUp ((slaveMachine cfg).event s i) = true := by simp [linkUp, hi, hdown]
  have hwire : wire (log ++ [(slaveMachine cfg).event s i]) =
      ((slaveLoop cfg s i).2.map (·.counter)).toList := by
    rw [wire, fromLast_concat, if_pos hup]
    cases hf : (slaveLoop cfg s i).2 <;> simp [hf]
  have hun : unheard cfg (log ++ [(slaveMachine cfg).event s i]) = 0 := by
    simp [unheard_concat, speaks, hup]
  refine ⟨hok, ?_, ?_⟩
  · rw [hwire]
    cases (slaveLoop cfg s i).2 <;> simp
  · intro c hmem
    rw [hwire] at hmem
    cases hf : (slaveLoop cfg s i).2 with
    | none => simp [hf] at hmem
    | some f =>
      obtain rfl : f.counter = c := by simpa [hf] using hmem
      rw [hun, hcount f hf]
      simp

theorem WireInv.step {cfg : SlaveCfg} {log : List SlaveStepped} {s : Slave} {i : SlaveInput}
    (h : WireInv cfg log s) (ho : Orderly cfg log ((slaveMachine cfg).event s i)) :
    WireInv cfg (log ++ [(slaveMachine cfg).event s i]) (slaveLoop cfg s i).1 := by
  cases hi : i.ev with
  | idle => exact h.clocked (by simp [SlaveInput.clock, hi]) (slaveLoop_idle h.ok hi) ho
  | phy want =>
    have hclock : i.clock cfg = none := by simp [SlaveInput.clock, hi]
    cases want with
    | true =>
      cases hup : s.phyUpSeen with
      | false => exact h.fresh hi hup
      | true =>
        obtain ⟨hsame, hf⟩ := slaveLoop_deaf (s := s) hclock (by simp [hi, hup])
        exact h.quiet hclock (by simp [linkUp, hi, hup]) (h.ok.same hsame) hsame.counter hf
    | false =>
      have hnot : linkUp ((slaveMachine cfg).event s i) = false := by simp [linkUp, hi]
      cases hup : s.phyUpSeen with
      | true =>
        obtain ⟨hok, hcount, hf⟩ := slaveLoop_linkDown cfg hi hup
        exact h.quiet hclock hnot hok hcount hf
      | false =>
        obtain ⟨hsame, hf⟩ := slaveLoop_deaf (s := s) hclock (by simp [hi, hup])
        exact h.quiet hclock hnot (h.ok.same hsame) hsame.counter hf
  | frame bytes =>
    by_cases hheard : frameIsReac bytes = true ∧ (ctrlParse bytes).src ≠ cfg.src
    · exact h.clocked (by simp [SlaveInput.clock, hi, hheard])
        (slaveLoop_frame h.ok hi hheard.1 hheard.2) ho
    · have hclock : i.clock cfg = none := by simp [SlaveInput.clock, hi, hheard]
      obtain ⟨hsame, hf⟩ := slaveLoop_deaf (s := s) hclock (by simp [hi])
      exact h.quiet hclock (by simp [linkUp, hi]) (h.ok.same hsame) hsame.counter hf

theorem wireInv_init (cfg : SlaveCfg) : WireInv cfg [] (slaveFsmInit cfg) := by
  have hfsm : (slaveFsmInit cfg).fsm.state = .phyDown ∧
      (slaveFsmInit cfg).fsm.haveMaster = false := by
    simp only [slaveFsmInit]
    split_ifs <;> exact ⟨rfl, rfl⟩
  refine ⟨⟨?_, ?_, fun _ => hfsm⟩, List.IsChain.nil, by simp [wire]⟩
  · simp [ReacFsm.KnowsMaster, hfsm.1]
  · simp [hfsm.2]

/-- On an orderly wire one counter value is one frame: since the link came up the counters advance in
serial-number order, and a frame of a source that is not the known master is never answered. -/
theorem one_frame_per_counter {cfg : SlaveCfg} {is : List SlaveInput}
    (ho : ∀ log e, (slaveMachine cfg).StepOf (slaveFsmInit cfg) is log e → Orderly cfg log e) :
    (∀ is₁ is₂, is = is₁ ++ is₂ → (wire ((slaveMachine cfg).trace (slaveFsmInit cfg) is₁)).IsChain
      fun a b => counterAhead a b = true) ∧
    ∀ log e, (slaveMachine cfg).StepOf (slaveFsmInit cfg) is log e →
      ∀ p, e.input.clock cfg = some (.rx p) → e.pre.fsm.haveMaster = true →
        p.src ≠ e.pre.fsm.masterMac → e.out = none := by
  constructor
  · rintro is₁ is₂ rfl
    have hinv := (slaveMachine cfg).trace_invariant (wireInv_init cfg) (fun _ _ _ h ho => h.step ho)
      is₁ fun log e he => ho log e (he.append _ is₂)
    exact hinv.chain
  · intro log e he p hclock hm hsrc
    obtain ⟨hinv, hev⟩ := (slaveMachine cfg).trace_invariant_at (wireInv_init cfg)
      (fun _ _ _ h ho => h.step ho) ho he
    have hsilent := (ho log e he).foreign p hclock hm hsrc
    generalize e.pre = s at *
    generalize e.input = i at *
    subst hev
    cases hi : i.ev with
    | phy want => simp [SlaveInput.clock, hi] at hclock
    | idle => simp [SlaveInput.clock, hi] at hclock
    | frame bytes =>
      by_cases hheard : frameIsReac bytes = true ∧ (ctrlParse bytes).src ≠ cfg.src
      · obtain rfl : ctrlParse bytes = p := by simpa [SlaveInput.clock, hi, hheard] using hclock
        have hc := slaveLoop_frame hinv.ok hi hheard.1 hheard.2
        cases hf : (slaveLoop cfg s i).2 with
        | none => exact hf
        | some f =>
          have := (hc.sent f hf).2
          rw [hsilent] at this
          cases this
      · simp [SlaveInput.clock, hi, hheard] at hclock

/-- A stagebox of ours. -/
def ourCfg : SlaveCfg := { src := macAt [0x00, 0x40, 0xab, 0xc4, 0x80, 0x42] 0 }

/-- A frame of the given type with an empty control block. -/
def plainFrame (src : Mac) (type : List UInt8) (counter : UInt8) : List UInt8 :=
  List.replicate 6 0xff ++ src.toList ++ [0x88, 0x19, counter, 0x00] ++ type ++ List.replicate 32 0

/-- The link comes up. -/
def upInput : SlaveInput := { ev := .phy true }

/-- The desk announces itself. -/
def announceInput (counter : UInt8) : SlaveInput :=
  { ev := .frame (plainFrame consoleMac [0xcf, 0xea] counter) }

/-- A stagebox next to us streams. -/
def fillerInput : SlaveInput := { ev := .frame (plainFrame neighbourMac [0x00, 0x00] 0) }

/-- The conditions of an orderly step, as a test. -/
def orderlyCheck (cfg : SlaveCfg) (log : List SlaveStepped) (e : SlaveStepped) : Bool :=
  unheard cfg log + e.pre.advance cfg e.input ≤ 0x8000 &&
  match e.input.clock cfg with
  | some (.rx p) =>
    (!e.pre.fsm.haveMaster || p.src = e.pre.fsm.masterMac || e.pre.fsm.silentOn (.rx p)) &&
    (!(e.pre.counterLocked && e.pre.fsm.hearsMaster p) ||
      counterAhead e.pre.fsm.counter (p.counter + e.pre.counterOffset))
  | _ => true

theorem Orderly.of_check {cfg : SlaveCfg} {log : List SlaveStepped} {e : SlaveStepped}
    (h : orderlyCheck cfg log e = true) : Orderly cfg log e := by
  simp only [orderlyCheck, Bool.and_eq_true, decide_eq_true_eq] at h
  refine ⟨?_, ?_, h.1⟩
  · intro p hclock hm hsrc
    have := h.2
    simp only [hclock, hm, hsrc] at this
    simp_all
  · intro p hclock hl hh
    have := h.2
    simp only [hclock, hl, hh] at this
    simp_all

theorem one_frame_per_counter_announces :
    (wire ((slaveMachine ourCfg).trace (slaveFsmInit ourCfg)
        [upInput, announceInput 10, announceInput 11])).IsChain (fun a b => counterAhead a b = true) ∧
      wire ((slaveMachine ourCfg).trace (slaveFsmInit ourCfg)
        [upInput, announceInput 10, announceInput 11]) = [1, 2, 3] := by
  refine ⟨(one_frame_per_counter ?_).1 _ [] (List.append_nil _).symm, by decide +kernel⟩
  intro log e he
  apply Orderly.of_check
  obtain ⟨rfl, rfl⟩ | ⟨log, rfl, he₁⟩ := he.of_cons
  · decide +kernel
  obtain ⟨rfl, rfl⟩ | ⟨log, rfl, he₂⟩ := he₁.of_cons
  · decide +kernel
  obtain ⟨rfl, rfl⟩ | ⟨log, rfl, post, he₃⟩ := he₂.of_cons
  · decide +kernel
  · simp at he₃

/-- An idle tick takes the counter value of the desk's next frame, and a neighbour's frame is
answered. -/
theorem counter_repeats :
    (wire ((slaveMachine ourCfg).trace (slaveFsmInit ourCfg)
        [upInput, announceInput 10, { ev := .idle }, announceInput 11]) = [1, 2, 3, 3] ∧
      ¬ (wire ((slaveMachine ourCfg).trace (slaveFsmInit ourCfg)
        [upInput, announceInput 10, { ev := .idle }, announceInput 11])).IsChain
          fun a b => counterAhead a b = true) ∧
    let s := (slaveMachine ourCfg).run (slaveFsmInit ourCfg) [upInput, announceInput 10]
    s.fsm.haveMaster = true ∧ s.fsm.masterMac = consoleMac ∧
      fillerInput.clock ourCfg = some (.rx (ctrlParse (plainFrame neighbourMac [0x00, 0x00] 0))) ∧
      (ctrlParse (plainFrame neighbourMac [0x00, 0x00] 0)).src = neighbourMac ∧
      (slaveLoop ourCfg s fillerInput).2.isSome = true := by
  have hwire : wire ((slaveMachine ourCfg).trace (slaveFsmInit ourCfg)
      [upInput, announceInput 10, { ev := .idle }, announceInput 11]) = [1, 2, 3, 3] := by
    decide +kernel
  refine ⟨⟨hwire, ?_⟩, ?_⟩
  · rw [hwire]
    decide
  · refine ⟨by decide +kernel, by decide +kernel, ?_, by decide +kernel, by decide +kernel⟩
    have hheard : frameIsReac (plainFrame neighbourMac [0x00, 0x00] 0) = true ∧
        (ctrlParse (plainFrame neighbourMac [0x00, 0x00] 0)).src ≠ ourCfg.src := by decide +kernel
    simp [SlaveInput.clock, fillerInput, hheard]

end Libreac
