import Mathlib.Tactic.SplitIfs
import Libreac.SlaveFsm

/-!
# Proofs: what one step of the stagebox can do

`reacFsmStep_move` lists every outcome of a step. Each invariant of the stagebox is proved by cases
on it; no later proof unfolds the step again.
-/

namespace Libreac

open Reactive

variable {fsm : ReacFsm} {ev : FsmEvent}

/-! ## Inversion -/

/-- What the slave knows after hearing the event: master evidence names the master. -/
inductive Learns (fsm : ReacFsm) : FsmEvent → ReacFsm → Prop where
  | nothing {ev : FsmEvent} (h : ∀ p, ev = .rx p → isMasterFrame p.kind = false) : Learns fsm ev fsm
  | master {p : CtrlParsed} (h : isMasterFrame p.kind = true) :
      Learns fsm (.rx p) (learnMaster fsm p)

theorem learns_rx (fsm : ReacFsm) (p : CtrlParsed) : Learns fsm (.rx p) (heardMaster fsm p) := by
  unfold heardMaster
  split_ifs with h
  · exact .master h
  · refine .nothing ?_
    intro q hq
    cases hq
    simpa using h

/-- The event is the reception of a grant. -/
def FsmEvent.isGrant : FsmEvent → Bool
  | .rx p => p.kind = .grant
  | _ => false

/-- Every outcome of a step, with the condition under which it is the outcome. -/
inductive FsmMove (fsm : ReacFsm) : FsmEvent → ReacFsm × FsmOut → Prop where
  | linkDown : FsmMove fsm .phyDown (({ fsm with state := .phyDown, haveMaster := false }).out .stop)
  | linkUp (hs : fsm.state = .phyDown) :
      FsmMove fsm .phyUp (floodTick { armFlood fsm with counter := 0 })
  | dark {ev : FsmEvent} (hs : fsm.state = .phyDown) : FsmMove fsm ev (fsm.out .stop)
  | earlyGrant {p : CtrlParsed} (hs : fsm.state = .floodAnnounce) (hg : p.kind = .grant) :
      FsmMove fsm (.rx p)
        (coldconnectTick (armColdconnect { learnMaster fsm p with state := .coldconnect }))
  | flood {ev : FsmEvent} {base : ReacFsm} (hs : fsm.state = .floodAnnounce)
      (hg : ev.isGrant = false) (hb : Learns fsm ev base)
      (hf : base.haveMaster = true → (floodTick base).1.floodFrames < floodBurst) :
      FsmMove fsm ev (floodTick base)
  | floodDone {ev : FsmEvent} {base : ReacFsm} (hs : fsm.state = .floodAnnounce)
      (hg : ev.isGrant = false) (hb : Learns fsm ev base) (hm : base.haveMaster = true) :
      FsmMove fsm ev
        (armColdconnect { (floodTick base).1 with state := .coldconnect }, (floodTick base).2)
  | lost {ev : FsmEvent} {base : ReacFsm} (hs : fsm.state = .coldconnect)
      (hb : base = coldconnectHears fsm ev) (hm : base.haveMaster = false) :
      FsmMove fsm ev (floodTick (armFlood base))
  | acked {ev : FsmEvent} {base : ReacFsm} (hs : fsm.state = .coldconnect)
      (hb : base = coldconnectHears fsm ev) (hm : base.haveMaster = true) (ha : base.grantAck = 1) :
      FsmMove fsm ev (({ base with
        grantAck := 0, state := .txMute, txmuteDwell := txmuteDwellReload
        linkCheck := linkcheckReload }).out .silence)
  | gaveUp {ev : FsmEvent} {base : ReacFsm} (hs : fsm.state = .coldconnect)
      (hb : base = coldconnectHears fsm ev) (hm : base.haveMaster = true) (ha : base.grantAck = 0)
      (hf : base.courtBudget ≤ base.coldconnectFrames) :
      FsmMove fsm ev
        (({ base with state := .backoff, backoff := base.backoffSteps }).out .stop)
  | court {ev : FsmEvent} {base : ReacFsm} (hs : fsm.state = .coldconnect)
      (hb : base = coldconnectHears fsm ev) (hm : base.haveMaster = true) (ha : base.grantAck ≠ 1)
      (hf : base.grantAck = 0 → base.coldconnectFrames < base.courtBudget) :
      FsmMove fsm ev (coldconnectTick
        { base with grantAck := if 0 < base.grantAck then base.grantAck - 1 else base.grantAck })
  | rest {ev : FsmEvent} (hs : fsm.state = .backoff) (hev : ev ≠ .phyDown) (hb : 1 < fsm.backoff) :
      FsmMove fsm ev (({ fsm with backoff := fsm.backoff - 1 }).out .stop)
  | rested {ev : FsmEvent} (hs : fsm.state = .backoff) (hb : fsm.backoff ≤ 1) :
      FsmMove fsm ev (floodTick (armFlood { fsm with backoff := fsm.backoff - 1 }))
  | muteHold (hs : fsm.state = .txMute) : FsmMove fsm .phyUp (fsm.out .silence)
  | mute {ev : FsmEvent} (hs : fsm.state = .txMute) (hd : 1 < fsm.txmuteDwell) :
      FsmMove fsm ev (({ fsm with
        counter := fsm.counter + 1, txmuteDwell := fsm.txmuteDwell - 1 }).out .silence)
  | muted {ev : FsmEvent} (hs : fsm.state = .txMute) (hd : fsm.txmuteDwell ≤ 1) :
      FsmMove fsm ev (({ fsm with
        counter := fsm.counter + 1, txmuteDwell := fsm.txmuteDwell - 1, state := .established
        linkCheck := linkcheckReload, heartbeatTick := 0 }).out .unicastAudio)
  | macChange {p : CtrlParsed} (hs : fsm.state = .established) (hm : fsm.haveMaster = true)
      (hsrc : p.src ≠ fsm.masterMac) (hk : isMasterFrame p.kind = true) :
      FsmMove fsm (.rx p) (({ fsm with state := .drop, dropReason := .macChange }).out .stop)
  | alive {p : CtrlParsed} (hs : fsm.state = .established)
      (hsrc : fsm.haveMaster = true → p.src = fsm.masterMac)
      (hk : p.kind = .masterHb ∨ p.kind = .masterAnnounce) :
      FsmMove fsm (.rx p) (audioOne { fsm with linkCheck := linkcheckReload })
  | audio {p : CtrlParsed} (hs : fsm.state = .established)
      (hsrc : fsm.haveMaster = true → p.src ≠ fsm.masterMac → isMasterFrame p.kind = false)
      (hk : p.kind ≠ .masterHb ∧ p.kind ≠ .masterAnnounce) :
      FsmMove fsm (.rx p) (audioOne fsm)
  | peerGone {ev : FsmEvent} (hs : fsm.state = .established) (hev : ∀ p, ev ≠ .rx p)
      (hl : fsm.linkCheck ≤ 1) :
      FsmMove fsm ev (({ fsm with
        counter := fsm.counter + 1, linkCheck := fsm.linkCheck - 1, state := .drop
        dropReason := .peerGone }).out .stop)
  | audioTick {ev : FsmEvent} (hs : fsm.state = .established) (hev : ∀ p, ev ≠ .rx p)
      (hl : 1 < fsm.linkCheck) :
      FsmMove fsm ev
        (audioOne { fsm with counter := fsm.counter + 1, linkCheck := fsm.linkCheck - 1 })
  | announce {ev : FsmEvent} (hs : fsm.state = .drop) :
      FsmMove fsm ev (floodTick (armFlood { fsm with haveMaster := false }))

theorem floodOne_move {base : ReacFsm} (hs : fsm.state = .floodAnnounce) (hg : ev.isGrant = false)
    (hb : Learns fsm ev base) : FsmMove fsm ev (floodOne base) := by
  simp only [floodOne]
  split_ifs with h
  · exact .floodDone hs hg hb h.2
  · refine .flood hs hg hb ?_
    intro hm
    by_contra hle
    exact h ⟨by omega, hm⟩

theorem stepFlood_move (hs : fsm.state = .floodAnnounce) : FsmMove fsm ev (stepFlood fsm ev) := by
  cases ev with
  | rx p =>
    simp only [stepFlood]
    split_ifs with hg
    · have hh : heardMaster fsm p = learnMaster fsm p := by simp [heardMaster, isMasterFrame, hg]
      rw [hh]
      exact .earlyGrant hs hg
    · exact floodOne_move hs (by simp [FsmEvent.isGrant, hg]) (learns_rx fsm p)
  | phyUp | phyDown | tick => exact floodOne_move hs rfl (.nothing (by simp))

theorem courtOne_move (hs : fsm.state = .coldconnect) :
    FsmMove fsm ev (courtOne (coldconnectHears fsm ev)) := by
  generalize hb : coldconnectHears fsm ev = base
  unfold courtOne
  by_cases hm : base.haveMaster = true
  · rw [if_neg (by simp [hm])]
    by_cases ha : base.grantAck = 1
    · rw [if_pos (by omega)]
      exact .acked hs hb.symm hm ha
    · rw [if_neg (by omega)]
      by_cases hpos : 0 < base.grantAck
      · have hopen : ¬ base.grantAck - 1 = 0 := by omega
        have := FsmMove.court hs hb.symm hm ha (by omega)
        simpa [hpos, hopen] using this
      · by_cases hf : base.grantAck = 0 ∧ base.courtBudget ≤ base.coldconnectFrames
        · simpa [hpos, hf] using FsmMove.gaveUp hs hb.symm hm hf.1 hf.2
        · have hbudget : base.grantAck = 0 →
              base.coldconnectFrames < base.courtBudget := by
            intro h0
            by_contra hle
            exact hf ⟨h0, by omega⟩
          simpa [hpos, hf] using FsmMove.court hs hb.symm hm ha hbudget
  · rw [if_pos (by simpa using hm)]
    exact .lost hs hb.symm (by simpa using hm)

theorem establishedRx_move {p : CtrlParsed} (hs : fsm.state = .established) :
    FsmMove fsm (.rx p) (establishedRx fsm p) := by
  unfold establishedRx
  split_ifs with hmac hk
  · exact .macChange hs hmac.1 hmac.2.1 hmac.2.2
  · refine .alive hs ?_ hk
    intro hm
    by_contra hsrc
    refine hmac ⟨hm, hsrc, ?_⟩
    rcases hk with hk | hk <;> simp [isMasterFrame, hk]
  · refine .audio hs ?_ (by simpa using hk)
    intro hm hsrc
    by_contra hkind
    exact hmac ⟨hm, hsrc, by simpa using hkind⟩

theorem establishedTick_move (hs : fsm.state = .established) (hev : ∀ p, ev ≠ .rx p) :
    FsmMove fsm ev (establishedTick fsm) := by
  simp only [establishedTick]
  split_ifs with hl
  · exact .peerGone hs hev (by omega)
  · exact .audioTick hs hev (by omega)

theorem muteOne_move (hs : fsm.state = .txMute) : FsmMove fsm ev (muteOne fsm) := by
  simp only [muteOne]
  split_ifs with hd
  · exact .muted hs (by omega)
  · exact .mute hs (by omega)

theorem stepBackoff_move (hs : fsm.state = .backoff) (hev : ev ≠ .phyDown) :
    FsmMove fsm ev (stepBackoff fsm) := by
  simp only [stepBackoff]
  split_ifs with hb
  · exact .rested hs (by omega)
  · exact .rest hs hev (by omega)

theorem reacFsmStep_move (fsm : ReacFsm) (ev : FsmEvent) : FsmMove fsm ev (reacFsmStep fsm ev) := by
  cases hs : fsm.state with
  | phyDown =>
    cases ev with
    | phyDown => exact .linkDown
    | phyUp =>
      simp only [reacFsmStep, hs]
      exact .linkUp hs
    | rx p | tick =>
      simp only [reacFsmStep, hs]
      exact .dark hs
  | floodAnnounce =>
    cases ev with
    | phyDown => exact .linkDown
    | phyUp | rx p | tick =>
      simp only [reacFsmStep, hs]
      exact stepFlood_move hs
  | coldconnect =>
    cases ev with
    | phyDown => exact .linkDown
    | phyUp | rx p | tick =>
      simp only [reacFsmStep, hs]
      exact courtOne_move hs
  | backoff =>
    cases ev with
    | phyDown => exact .linkDown
    | phyUp | rx p | tick =>
      simp only [reacFsmStep, hs]
      exact stepBackoff_move hs (by simp)
  | txMute =>
    cases ev with
    | phyDown => exact .linkDown
    | phyUp =>
      simp only [reacFsmStep, hs]
      exact .muteHold hs
    | rx p | tick =>
      simp only [reacFsmStep, hs]
      exact muteOne_move hs
  | established =>
    cases ev with
    | phyDown => exact .linkDown
    | rx p =>
      simp only [reacFsmStep, hs]
      exact establishedRx_move hs
    | phyUp | tick =>
      simp only [reacFsmStep, hs]
      exact establishedTick_move hs (by simp)
  | drop =>
    cases ev with
    | phyDown => exact .linkDown
    | phyUp | rx p | tick =>
      simp only [reacFsmStep, hs]
      exact .announce hs

/-! ## The parts of a step -/

theorem audioOne_fst (fsm : ReacFsm) :
    (audioOne fsm).1 = { fsm with
      heartbeatTick := if fsm.framesPerS ≤ fsm.heartbeatTick + 1 then 0 else fsm.heartbeatTick + 1
      emitHeartbeat := false, emitJoin := false } := by
  simp only [audioOne, ReacFsm.out]
  split_ifs <;> rfl

theorem audioOne_out (fsm : ReacFsm) :
    (audioOne fsm).2.action = .unicastAudio ∧ (audioOne fsm).2.emitJoin = fsm.emitJoin := by
  simp only [audioOne, ReacFsm.out, true_and]
  split_ifs <;> rfl

/-- Hearing something names a master or changes nothing. -/
theorem Learns.eq {base : ReacFsm} (h : Learns fsm ev base) :
    ∃ mac have', base = { fsm with masterMac := mac, haveMaster := have' } ∧
      (fsm.haveMaster = true → have' = true) := by
  cases h with
  | nothing h => exact ⟨fsm.masterMac, fsm.haveMaster, rfl, fun hm => hm⟩
  | master h => exact ⟨_, true, rfl, fun _ => rfl⟩

/-- What the courting slave makes of an event: a grant opens the window if none is open. -/
theorem coldconnectHears_eq (fsm : ReacFsm) (ev : FsmEvent) :
    ∃ mac have', coldconnectHears fsm ev = { fsm with
        masterMac := mac, haveMaster := have'
        grantAck := if ev.isGrant = true ∧ fsm.grantAck = 0 then grantAckFrames else fsm.grantAck } ∧
      (fsm.haveMaster = true → have' = true) := by
  cases ev with
  | rx p =>
    obtain ⟨mac, have', hbase, hm⟩ := (learns_rx fsm p).eq
    refine ⟨mac, have', ?_, hm⟩
    simp only [coldconnectHears, FsmEvent.isGrant, decide_eq_true_eq, hbase]
    split_ifs <;> rfl
  | phyUp | phyDown | tick => exact ⟨fsm.masterMac, fsm.haveMaster, by simp [coldconnectHears,
      FsmEvent.isGrant], fun hm => hm⟩

/-! ## What holds in every state -/

/-- The bounds of the counters in each state, and where a master is known. -/
structure FsmOk (fps : ℤ) (fsm : ReacFsm) : Prop where
  period : fsm.heartbeatPeriod = fps
  clear : fsm.emitJoin = false
  flood : fsm.state = .floodAnnounce → fsm.grantAck = 0 ∧ 0 ≤ fsm.floodFrames ∧
    (fsm.haveMaster = true → fsm.floodFrames < floodBurst)
  court : fsm.state = .coldconnect → fsm.haveMaster = true ∧ 0 ≤ fsm.grantAck ∧
    fsm.grantAck < grantAckFrames ∧ 0 ≤ fsm.joinRetryCountdown ∧
    fsm.joinRetryCountdown ≤ joinRetryPeriod ∧ 0 ≤ fsm.coldconnectFrames
  mute : fsm.state = .txMute → fsm.haveMaster = true
  held : fsm.state = .established →
    fsm.haveMaster = true ∧ 1 ≤ fsm.linkCheck ∧ fsm.linkCheck ≤ linkcheckReload

theorem reacFsmAt_ok (fps : ℤ) : FsmOk fps (reacFsmAt fps) := by
  constructor <;> simp [reacFsmAt, reacFsmInit]

theorem FsmOk.step {fps : ℤ} (h : FsmOk fps fsm) (ev : FsmEvent) :
    FsmOk fps (reacFsmStep fsm ev).1 := by
  have hp := h.period
  have hc := h.clear
  have hmove := reacFsmStep_move fsm ev
  generalize reacFsmStep fsm ev = r at hmove
  cases hmove with
  | linkDown => constructor <;> simp [ReacFsm.out, hp]
  | dark hs => constructor <;> simp [ReacFsm.out, hp, hs]
  | linkUp hs => constructor <;> simp [floodTick, armFlood, ReacFsm.out, hp, floodBurst]
  | rested hs hb => constructor <;> simp [floodTick, armFlood, ReacFsm.out, hp, floodBurst]
  | announce hs => constructor <;> simp [floodTick, armFlood, ReacFsm.out, hp, floodBurst]
  | lost hs hb hm =>
    obtain ⟨mac, have', heq, -⟩ := coldconnectHears_eq fsm ev
    subst hb
    constructor <;> simp [floodTick, armFlood, ReacFsm.out, hp, heq, floodBurst]
  | earlyGrant hs hg =>
    have := (h.flood hs).1
    constructor <;> simp [coldconnectTick, armColdconnect, learnMaster, ReacFsm.out, hp, this,
      grantAckFrames, joinRetryPeriod]
  | flood hs hg hb hf =>
    obtain ⟨mac, have', rfl, -⟩ := hb.eq
    obtain ⟨h0, hff, -⟩ := h.flood hs
    constructor <;> simp_all [floodTick, ReacFsm.out]
    split_ifs <;> omega
  | floodDone hs hg hb hm =>
    obtain ⟨mac, have', rfl, -⟩ := hb.eq
    obtain ⟨h0, -⟩ := h.flood hs
    simp only at hm
    constructor <;> simp [floodTick, armColdconnect, ReacFsm.out, hp, h0, hm, grantAckFrames,
      joinRetryPeriod]
  | acked hs hb hm ha =>
    obtain ⟨mac, have', heq, -⟩ := coldconnectHears_eq fsm ev
    subst hb
    constructor <;> simp_all [ReacFsm.out]
  | gaveUp hs hb hm ha hf =>
    obtain ⟨mac, have', heq, -⟩ := coldconnectHears_eq fsm ev
    subst hb
    constructor <;> simp_all [ReacFsm.out]
  | court hs hb hm ha hf =>
    obtain ⟨mac, have', heq, -⟩ := coldconnectHears_eq fsm ev
    obtain ⟨-, h0, h1, h2, h3, h4⟩ := h.court hs
    subst hb
    rw [heq] at hm ha ⊢
    simp only at hm ha
    subst hm
    constructor <;> simp [coldconnectTick, ReacFsm.out, hp, hs]
    clear ha hf heq
    unfold grantAckFrames at *
    unfold joinRetryPeriod at *
    refine ⟨?_, ?_, ?_, ?_, by omega⟩ <;> split_ifs <;> omega
  | rest hs hev hb => constructor <;> simp [ReacFsm.out, hp, hs]
  | muteHold hs =>
    have := h.mute hs
    constructor <;> simp [ReacFsm.out, hp, hs, this]
  | mute hs hd =>
    have := h.mute hs
    constructor <;> simp [ReacFsm.out, hp, hs, this]
  | muted hs hd =>
    have := h.mute hs
    constructor <;> simp [ReacFsm.out, hp, this, linkcheckReload]
  | macChange hs hm hsrc hk => constructor <;> simp [ReacFsm.out, hp]
  | peerGone hs hev hl => constructor <;> simp [ReacFsm.out, hp]
  | alive hs hsrc hk =>
    have := (h.held hs).1
    constructor <;> simp [audioOne_fst, hp, hs, this, linkcheckReload]
  | audio hs hsrc hk =>
    have := h.held hs
    constructor <;> simp [audioOne_fst, hp, hs, this]
  | audioTick hs hev hl =>
    obtain ⟨hm, h1, h2⟩ := h.held hs
    constructor <;> simp [audioOne_fst, hp, hs, hm]
    omega

/-- Every state of a run is within its bounds. -/
theorem fsmOk_run (fps : ℤ) (evs : List FsmEvent) : FsmOk fps (fsmMachine.run (reacFsmAt fps) evs) :=
  fsmMachine.run_invariant (L := fun _ _ => True) (reacFsmAt_ok fps) (fun _ ev h _ => h.step ev) evs
    fun _ _ _ => trivial

/-! ## Where a step leads -/

/-- Nothing is sent: the link is down, was lost, or rests after a courtship in vain. -/
def ReacFsm.OffWire (fsm : ReacFsm) : Prop :=
  fsm.state = .phyDown ∨ fsm.state = .drop ∨ fsm.state = .backoff

/-- The grant has been acknowledged. -/
def ReacFsm.Held (fsm : ReacFsm) : Prop := fsm.state = .txMute ∨ fsm.state = .established

theorem reacFsmStep_off (ev : FsmEvent) (hs : fsm.OffWire) :
    (reacFsmStep fsm ev).1.OffWire ∨
      (reacFsmStep fsm ev).1.state = .floodAnnounce ∧ (reacFsmStep fsm ev).1.grantAck = 0 := by
  have hmove := reacFsmStep_move fsm ev
  generalize reacFsmStep fsm ev = r at hmove
  cases hmove <;> simp_all [ReacFsm.OffWire, ReacFsm.out, floodTick, armFlood]

theorem reacFsmStep_flooding (ev : FsmEvent) (hs : fsm.state = .floodAnnounce) :
    (reacFsmStep fsm ev).1.state = .phyDown ∨
      ((reacFsmStep fsm ev).1.state = .floodAnnounce ∨
        (reacFsmStep fsm ev).1.state = .coldconnect ∧ (reacFsmStep fsm ev).1.coldconnectFrames ≤ 1) ∧
      (reacFsmStep fsm ev).1.grantAck = fsm.grantAck := by
  have hmove := reacFsmStep_move fsm ev
  generalize reacFsmStep fsm ev = r at hmove
  cases hmove with
  | linkDown => exact .inl rfl
  | earlyGrant => exact .inr ⟨.inr ⟨rfl, by simp [coldconnectTick, armColdconnect, ReacFsm.out]⟩, rfl⟩
  | flood _ _ hb =>
    obtain ⟨mac, have', rfl, -⟩ := hb.eq
    exact .inr ⟨.inl hs, rfl⟩
  | floodDone _ _ hb =>
    obtain ⟨mac, have', rfl, -⟩ := hb.eq
    exact .inr ⟨.inr ⟨rfl, by simp [armColdconnect]⟩, rfl⟩
  | _ => simp_all

theorem reacFsmStep_held (ev : FsmEvent) (hs : fsm.Held) :
    (reacFsmStep fsm ev).1.OffWire ∨ (reacFsmStep fsm ev).1.Held := by
  have hmove := reacFsmStep_move fsm ev
  generalize reacFsmStep fsm ev = r at hmove
  cases hmove <;> simp_all [ReacFsm.Held, ReacFsm.OffWire, ReacFsm.out, audioOne_fst]

/-- A step that goes on courting: one frame, on the retry grid with a record, and the window opened
by a first grant or counted down. -/
structure Courts (fsm : ReacFsm) (ev : FsmEvent) (r : ReacFsm × FsmOut) : Prop where
  running : fsm.grantAck ≠ 1
  ack : r.1.grantAck = if ev.isGrant = true ∧ fsm.grantAck = 0 then grantAckFrames - 1
    else if 0 < fsm.grantAck then fsm.grantAck - 1 else fsm.grantAck
  join : r.2.emitJoin = decide (fsm.joinRetryCountdown - 1 ≤ 0)
  grid : r.1.joinRetryCountdown =
    if fsm.joinRetryCountdown - 1 ≤ 0 then joinRetryPeriod else fsm.joinRetryCountdown - 1
  spent : r.1.coldconnectFrames = fsm.coldconnectFrames + 1
  budget : ev.isGrant = false → fsm.grantAck = 0 →
    fsm.coldconnectFrames < fsm.courtBudget

theorem reacFsmStep_courting {fps : ℤ} (ev : FsmEvent) (hok : FsmOk fps fsm) (hs : fsm.state = .coldconnect) :
    ev = .phyDown ∧ (reacFsmStep fsm ev).1.state = .phyDown ∨
    (reacFsmStep fsm ev).1.state = .backoff ∨
    (reacFsmStep fsm ev).1.state = .txMute ∧ fsm.grantAck = 1 ∨
    (reacFsmStep fsm ev).1.state = .coldconnect ∧ Courts fsm ev (reacFsmStep fsm ev) := by
  obtain ⟨mac, have', heq, hkeep⟩ := coldconnectHears_eq fsm ev
  have hmove := reacFsmStep_move fsm ev
  generalize reacFsmStep fsm ev = r at hmove
  cases hmove with
  | linkDown => exact .inl ⟨rfl, rfl⟩
  | gaveUp => exact .inr (.inl rfl)
  | lost _ hb hm =>
    subst hb
    rw [heq] at hm
    have := hkeep (hok.court hs).1
    simp_all
  | acked _ hb _ ha =>
    subst hb
    rw [heq] at ha
    simp only [grantAckFrames] at ha
    refine .inr (.inr (.inl ⟨rfl, ?_⟩))
    split_ifs at ha <;> omega
  | court _ hb _ ha hf =>
    subst hb
    rw [heq] at ha hf ⊢
    simp only at ha hf
    have hclear := hok.clear
    refine .inr (.inr (.inr ⟨hs, ?_, ?_, ?_, ?_, rfl, ?_⟩))
    · intro h1
      rw [if_neg (by omega)] at ha
      exact ha h1
    · simp only [coldconnectTick, ReacFsm.out, grantAckFrames]
      split_ifs <;> omega
    · simp only [coldconnectTick, ReacFsm.out, hclear]
      split_ifs with hdue <;> simp [hdue]
    · simp only [coldconnectTick, ReacFsm.out]
    · intro hg h0
      rw [if_neg (by simp [hg])] at hf
      exact hf h0
  | _ => simp_all

/-- The action puts a frame on the wire. -/
def FsmAction.sends (a : FsmAction) : Bool :=
  a = .floodBcast ∨ a = .unicastColdconnect ∨ a = .unicastAudio

/-- A step off the wire sends nothing. -/
theorem reacFsmStep_offWire_quiet (h : (reacFsmStep fsm ev).1.OffWire) :
    (reacFsmStep fsm ev).2.action.sends = false := by
  have hmove := reacFsmStep_move fsm ev
  generalize reacFsmStep fsm ev = r at hmove h
  cases hmove with
  | flood hs _ hb =>
    obtain ⟨mac, have', rfl, -⟩ := hb.eq
    simp [ReacFsm.OffWire, floodTick, ReacFsm.out, hs] at h
  | court hs hb =>
    obtain ⟨mac, have', heq, -⟩ := coldconnectHears_eq fsm ev
    subst hb
    simp [ReacFsm.OffWire, coldconnectTick, ReacFsm.out, heq, hs] at h
  | _ =>
    simp_all [ReacFsm.OffWire, ReacFsm.out, FsmAction.sends, floodTick, armFlood, coldconnectTick,
      armColdconnect, audioOne_fst]

/-- The pause begins when a courtship is given up, and that step sends nothing. -/
theorem reacFsmStep_gaveUp (hs : fsm.state ≠ .backoff)
    (h : (reacFsmStep fsm ev).1.state = .backoff) :
    (reacFsmStep fsm ev).1.backoff = fsm.backoffSteps ∧
      (reacFsmStep fsm ev).1.counter = fsm.counter := by
  have hmove := reacFsmStep_move fsm ev
  generalize reacFsmStep fsm ev = r at hmove h
  cases hmove with
  | flood hs' _ hb =>
    obtain ⟨mac, have', rfl, -⟩ := hb.eq
    simp [floodTick, ReacFsm.out, hs'] at h
  | gaveUp _ hb =>
    obtain ⟨mac, have', heq, -⟩ := coldconnectHears_eq fsm ev
    subst hb
    simp [ReacFsm.out, heq, ReacFsm.backoffSteps, ReacFsm.framesPerS]
  | court hs' hb =>
    obtain ⟨mac, have', heq, -⟩ := coldconnectHears_eq fsm ev
    subst hb
    simp [coldconnectTick, ReacFsm.out, heq, hs'] at h
  | _ =>
    simp_all [ReacFsm.out, floodTick, armFlood, coldconnectTick, armColdconnect, audioOne_fst]

/-- The pause goes on whatever is heard, and ends in a flood. -/
theorem reacFsmStep_resting (hs : fsm.state = .backoff) (hev : ev ≠ .phyDown) :
    (1 < fsm.backoff → reacFsmStep fsm ev = ({ fsm with backoff := fsm.backoff - 1 }).out .stop) ∧
      (fsm.backoff ≤ 1 → (reacFsmStep fsm ev).1.state = .floodAnnounce) := by
  have hstep : reacFsmStep fsm ev = stepBackoff fsm := by
    cases ev <;> simp_all [reacFsmStep]
  rw [hstep, stepBackoff]
  constructor
  · intro hb
    rw [if_neg (by simp only; omega)]
  · intro hb
    rw [if_pos (by simp only; omega)]
    rfl

/-- A broadcast frame counts towards the burst, and a known master ends the burst. -/
theorem reacFsmStep_floods {fps : ℤ} (hok : FsmOk fps fsm)
    (ha : (reacFsmStep fsm ev).2.action = .floodBcast)
    (hm : (reacFsmStep fsm ev).1.haveMaster = true) :
    ((reacFsmStep fsm ev).1.state = .floodAnnounce ∧ 1 ≤ (reacFsmStep fsm ev).1.floodFrames ∧
      (fsm.state = .floodAnnounce → fsm.haveMaster = true →
        (reacFsmStep fsm ev).1.floodFrames = fsm.floodFrames + 1)) ∨
    (reacFsmStep fsm ev).1.state = .coldconnect := by
  have hmove := reacFsmStep_move fsm ev
  generalize reacFsmStep fsm ev = r at hmove ha hm
  cases hmove with
  | flood hs _ hb hf =>
    obtain ⟨mac, have', rfl, -⟩ := hb.eq
    obtain ⟨-, hff, hlt⟩ := hok.flood hs
    refine .inl ⟨hs, ?_, ?_⟩
    · simp only [floodTick, ReacFsm.out, floodBurst]
      split_ifs <;> omega
    · intro _ hm'
      simp [floodTick, ReacFsm.out, hlt hm']
  | floodDone => exact .inr rfl
  | lost hs => exact .inl ⟨rfl, by simp [floodTick, armFlood, ReacFsm.out, floodBurst], by simp [hs]⟩
  | linkUp hs | announce hs | rested hs =>
    exact .inl ⟨rfl, by simp [floodTick, armFlood, ReacFsm.out, floodBurst], by simp [hs]⟩
  | alive => simp [audioOne_out] at ha
  | audio => simp [audioOne_out] at ha
  | audioTick => simp [audioOne_out] at ha
  | _ => simp_all [ReacFsm.out, coldconnectTick]

/-- While it courts, the slave does not broadcast. -/
theorem reacFsmStep_courting_unicasts {fps : ℤ} (hok : FsmOk fps fsm) (hs : fsm.state = .coldconnect) :
    (reacFsmStep fsm ev).2.action ≠ .floodBcast := by
  obtain ⟨mac, have', heq, hkeep⟩ := coldconnectHears_eq fsm ev
  have hmove := reacFsmStep_move fsm ev
  generalize reacFsmStep fsm ev = r at hmove
  cases hmove with
  | lost _ hb hm =>
    subst hb
    rw [heq] at hm
    have := hkeep (hok.court hs).1
    simp_all
  | _ => simp_all [ReacFsm.out, coldconnectTick]

/-! ## A desk and a neighbour -/

/-- A desk and a stagebox next to us. -/
def consoleMac : Mac := macAt [0x00, 0x40, 0xab, 0xc4, 0x00, 0x01] 0

def neighbourMac : Mac := macAt [0x00, 0x40, 0xab, 0xc4, 0x80, 0x41] 0

end Libreac
