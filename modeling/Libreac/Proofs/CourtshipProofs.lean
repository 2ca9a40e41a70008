import Mathlib.Tactic.FinCases
import Libreac.Slave
import Libreac.Proofs.SlaveFsmProofs

/-!
# Proofs: courtship, acknowledgement, silence and loss

The slave goes quiet and then streams only after a grant it has acknowledged in full; a courtship
that is not granted ends in a silent pause; and the countdown that notices a departed master runs on
ticks only.
-/

namespace Libreac

open Reactive

/-! ## The grant and its acknowledgement -/

/-- The step enters the flood: a fresh courtship begins. -/
def entersFlood (e : FsmStep) : Bool := e.pre.state ≠ .floodAnnounce ∧ e.post.state = .floodAnnounce

/-- The step receives a grant while courting. -/
def grantedIn (e : FsmStep) : Bool := e.pre.state = .coldconnect ∧ e.input.isGrant

/-- The number of steps that carry a cold-connect record. -/
def joins (steps : List FsmStep) : ℕ := steps.countP (·.out.emitJoin)

@[simp] theorem joins_concat (steps : List FsmStep) (e : FsmStep) :
    joins (steps ++ [e]) = joins steps + e.out.emitJoin.toNat := by
  cases h : e.out.emitJoin <;> simp [joins, List.countP_append, h]

/-- The records the steps put on the wire, from the escalation phase on. -/
def escalation (phase : ℕ) : List FsmStep → List SlaveRecord
  | [] => []
  | e :: steps =>
    if e.out.emitJoin then escalationRecord phase :: escalation (phase + 1) steps
    else escalation phase steps

/-- The `k`-th join carries the `k`-th record of the escalation. -/
theorem escalation_mem {steps : List FsmStep} {k : ℕ} (hk : k < joins steps) (phase : ℕ) :
    escalationRecord (phase + k) ∈ escalation phase steps := by
  induction steps generalizing k phase with
  | nil => simp [joins] at hk
  | cons e steps ih =>
    by_cases he : e.out.emitJoin = true
    · simp only [escalation, he, if_true, List.mem_cons]
      cases k with
      | zero => exact .inl rfl
      | succ k =>
        right
        have hk' : k < joins steps := by simpa [joins, he] using hk
        have := ih hk' (phase + 1)
        rwa [Nat.add_assoc, Nat.add_comm 1 k] at this
    · have hk' : k < joins steps := by simpa [joins, he] using hk
      simpa [escalation, he] using ih hk' phase

/-- Eight joins send every record of the escalation. -/
theorem escalation_complete {steps : List FsmStep} (h : 8 ≤ joins steps) (phase r : ℕ) :
    escalationRecord r ∈ escalation phase steps := by
  have hk : (r + 7 * phase) % 8 < joins steps := by omega
  have hr : escalationRecord r = escalationRecord (phase + (r + 7 * phase) % 8) := by
    have hmod : (phase + (r + 7 * phase) % 8) % 8 = r % 8 := by omega
    simp only [escalationRecord, hmod]
  rw [hr]
  exact escalation_mem hk phase

/-- The steps of a courtship up to its first grant, the grant, and the steps after it. -/
structure Granted (phase before : List FsmStep) (grant : FsmStep) (after : List FsmStep) : Prop where
  eq : phase = before ++ grant :: after
  granted : grantedIn grant = true
  first : ∀ e ∈ before, grantedIn e = false

theorem Granted.concat {phase before after : List FsmStep} {grant : FsmStep}
    (h : Granted phase before grant after) (e : FsmStep) :
    Granted (phase ++ [e]) before grant (after ++ [e]) :=
  ⟨by simp [h.eq], h.granted, h.first⟩

/-- What the steps of a courtship say about the state they lead to. The window counts the steps
after the grant, and the retry grid bounds how many of them carry no record. -/
inductive Courted (phase : List FsmStep) (fsm : ReacFsm) : Prop where
  | ungranted (hs : fsm.state = .floodAnnounce ∨ fsm.state = .coldconnect) (ha : fsm.grantAck = 0)
      (hno : ∀ e ∈ phase, grantedIn e = false)
  | acking {before after : List FsmStep} {grant : FsmStep} (hs : fsm.state = .coldconnect)
      (hg : Granted phase before grant after) (ha : 1 ≤ fsm.grantAck)
      (hlen : fsm.grantAck + after.length = grantAckFrames - 1)
      (hjoin : after.length + fsm.joinRetryCountdown ≤ joinRetryPeriod * joins after + joinRetryPeriod)
      (hgrid : 1 ≤ fsm.joinRetryCountdown)
  | acked {before after : List FsmStep} {grant : FsmStep}
      (hs : fsm.state = .txMute ∨ fsm.state = .established) (hg : Granted phase before grant after)
      (hjoin : 8 ≤ joins after)

/-- At the end of the window eight records have left. -/
theorem eight_joins {after : List FsmStep} {left : ℤ} (hlen : 1 + after.length = grantAckFrames - 1)
    (hjoin : after.length + left ≤ joinRetryPeriod * joins after + joinRetryPeriod) (hleft : 1 ≤ left) :
    8 ≤ joins after := by
  unfold grantAckFrames at hlen
  unfold joinRetryPeriod at hjoin
  omega

/-- Off the wire, or in a courtship that began with the last entry to the flood. -/
def CourtInv (log : List FsmStep) (fsm : ReacFsm) : Prop :=
  fsm.OffWire ∨ ∃ enter phase, fromLast entersFlood log = enter :: phase ∧ entersFlood enter = true ∧
    Courted phase fsm

theorem CourtInv.of_enter {log : List FsmStep} {fsm : ReacFsm} {ev : FsmEvent}
    (hpre : fsm.state ≠ .floodAnnounce) (hpost : (reacFsmStep fsm ev).1.state = .floodAnnounce)
    (ha : (reacFsmStep fsm ev).1.grantAck = 0) :
    CourtInv (log ++ [fsmMachine.event fsm ev]) (reacFsmStep fsm ev).1 := by
  have henter : entersFlood (fsmMachine.event fsm ev) = true := by
    simp [entersFlood, hpre, fsmMachine, hpost]
  refine .inr ⟨fsmMachine.event fsm ev, [], ?_, henter, .ungranted (.inl hpost) ha (by simp)⟩
  rw [fromLast_concat, if_pos henter]

theorem CourtInv.of_stay {log : List FsmStep} {fsm : ReacFsm} {ev : FsmEvent}
    (h : CourtInv log fsm) (hon : fsm.state = .floodAnnounce ∨ fsm.state = .coldconnect ∨
      fsm.state = .txMute ∨ fsm.state = .established)
    (hstay : entersFlood (fsmMachine.event fsm ev) = false)
    (hstep : ∀ phase, Courted phase fsm →
      Courted (phase ++ [fsmMachine.event fsm ev]) (reacFsmStep fsm ev).1) :
    CourtInv (log ++ [fsmMachine.event fsm ev]) (reacFsmStep fsm ev).1 := by
  rcases h with hoff | ⟨enter, phase, hlast, henter, hc⟩
  · rcases hon with hon | hon | hon | hon <;> simp [ReacFsm.OffWire, hon] at hoff
  · refine .inr ⟨enter, phase ++ [fsmMachine.event fsm ev], ?_, henter, hstep phase hc⟩
    rw [fromLast_concat, hlast, if_neg (by simp [hstay])]
    rfl

/-- A step of the courtship, after the event has been heard: the window opens, runs and closes. -/
theorem Courted.court {phase : List FsmStep} {fsm post : ReacFsm} {e : FsmStep} {fps : ℤ}
    (h : Courted phase fsm) (hok : FsmOk fps fsm) (hs : fsm.state = .coldconnect)
    (hpre : e.pre = fsm) (hstate : post.state = .coldconnect)
    (hack : post.grantAck =
      if e.input.isGrant = true ∧ fsm.grantAck = 0 then grantAckFrames - 1
      else if 0 < fsm.grantAck then fsm.grantAck - 1 else fsm.grantAck)
    (hne : fsm.grantAck ≠ 1)
    (hjoin : e.out.emitJoin = decide (fsm.joinRetryCountdown - 1 ≤ 0))
    (hgrid : post.joinRetryCountdown =
      if fsm.joinRetryCountdown - 1 ≤ 0 then joinRetryPeriod else fsm.joinRetryCountdown - 1) :
    Courted (phase ++ [e]) post := by
  obtain ⟨-, -, -, hg0, hg1, -⟩ := hok.court hs
  cases h with
  | ungranted _ ha hno =>
    by_cases hgrant : e.input.isGrant = true
    · rw [if_pos ⟨hgrant, ha⟩] at hack
      have hthis : grantedIn e = true := by simp [grantedIn, hpre, hs, hgrant]
      have hg : Granted (phase ++ [e]) phase e [] := ⟨rfl, hthis, hno⟩
      refine .acking hstate hg (by simp [hack, grantAckFrames]) (by simp [hack]) ?_ ?_
      · simp only [List.length_nil, joins, List.countP_nil, joinRetryPeriod] at *
        split_ifs at hgrid <;> omega
      · simp only [joinRetryPeriod] at *
        split_ifs at hgrid <;> omega
    · rw [if_neg (by simp [hgrant])] at hack
      refine .ungranted (.inr hstate) (by simp [hack, ha]) ?_
      intro x hx
      rcases List.mem_append.mp hx with hx | hx
      · exact hno x hx
      · obtain rfl := List.mem_singleton.mp hx
        simp [grantedIn, hgrant]
  | acking _ hg ha hlen hjoins hgrid' =>
    have hopen : ¬ (e.input.isGrant = true ∧ fsm.grantAck = 0) := by omega
    rw [if_neg hopen, if_pos (by omega)] at hack
    refine .acking hstate (hg.concat e) (by omega) ?_ ?_ ?_
    · simp only [List.length_append, List.length_singleton, hack]
      push_cast
      omega
    · simp only [List.length_append, List.length_singleton, joins_concat, hjoin, joinRetryPeriod] at *
      split_ifs at hgrid with hdue
      · simp only [hdue, decide_true, Bool.toNat_true]
        push_cast
        omega
      · simp only [hdue, decide_false, Bool.toNat_false]
        push_cast
        omega
    · simp only [joinRetryPeriod] at *
      split_ifs at hgrid <;> omega
  | acked hs' => simp [hs] at hs'

/-- A step that emits no flood frame and stays within the phases after the grant. -/
theorem Courted.hold {phase : List FsmStep} {fsm post : ReacFsm} {e : FsmStep} (h : Courted phase fsm)
    (hs : fsm.state = .txMute ∨ fsm.state = .established)
    (hpost : post.state = .txMute ∨ post.state = .established) : Courted (phase ++ [e]) post := by
  cases h with
  | ungranted hs' => rcases hs with hs | hs <;> simp [hs] at hs'
  | acking hs' => rcases hs with hs | hs <;> simp [hs] at hs'
  | acked _ hg hjoin =>
    refine .acked hpost (hg.concat e) ?_
    rw [joins_concat]
    omega

/-- While the flood lasts no grant has been taken in the cold-connect phase. -/
theorem Courted.flooding {phase : List FsmStep} {fsm post : ReacFsm} {e : FsmStep}
    (h : Courted phase fsm) (hs : fsm.state = .floodAnnounce) (hpre : e.pre = fsm)
    (hpost : post.state = .floodAnnounce ∨ post.state = .coldconnect) (ha : post.grantAck = 0) :
    Courted (phase ++ [e]) post := by
  cases h with
  | ungranted _ _ hno =>
    refine .ungranted hpost ha ?_
    intro x hx
    rcases List.mem_append.mp hx with hx | hx
    · exact hno x hx
    · obtain rfl := List.mem_singleton.mp hx
      simp [grantedIn, hpre, hs]
  | acking hs' => simp [hs] at hs'
  | acked hs' => simp [hs] at hs'

theorem CourtInv.step {fps : ℤ} {log : List FsmStep} {fsm : ReacFsm} (hok : FsmOk fps fsm)
    (h : CourtInv log fsm) (ev : FsmEvent) :
    CourtInv (log ++ [fsmMachine.event fsm ev]) (reacFsmStep fsm ev).1 := by
  have hstay (hne : fsm.state = .floodAnnounce ∨ (reacFsmStep fsm ev).1.state ≠ .floodAnnounce) :
      entersFlood (fsmMachine.event fsm ev) = false := by
    have hpost : (fsmMachine.event fsm ev).post = (reacFsmStep fsm ev).1 := rfl
    rcases hne with hne | hne <;> simp only [entersFlood, hpost, fsmMachine.event_pre, hne] <;> simp
  cases hs : fsm.state with
  | phyDown | drop | backoff =>
    have hpre : fsm.OffWire := by simp [ReacFsm.OffWire, hs]
    rcases reacFsmStep_off ev hpre with hoff | ⟨hpost, ha⟩
    · exact .inl hoff
    · exact .of_enter (by simp [hs]) hpost ha
  | floodAnnounce =>
    rcases reacFsmStep_flooding ev hs with hdown | ⟨hpost, ha⟩
    · exact .inl (.inl hdown)
    · refine h.of_stay (.inl hs) (hstay (.inl hs)) fun phase hc => ?_
      exact hc.flooding hs rfl (hpost.imp_right And.left) (ha.trans (hok.flood hs).1)
  | coldconnect =>
    rcases reacFsmStep_courting ev hok hs with ⟨-, hdown⟩ | hback | ⟨hpost, hone⟩ | ⟨hpost, hc⟩
    · exact .inl (.inl hdown)
    · exact .inl (.inr (.inr hback))
    · refine h.of_stay (.inr (.inl hs)) (hstay (.inr (by simp [hpost]))) fun phase hc => ?_
      -- The window that closes was open before this step.
      cases hc with
      | ungranted _ h0 => omega
      | acking _ hg _ hlen hjoin hgrid =>
        refine .acked (.inl hpost) (hg.concat _) ?_
        have := eight_joins (by rw [hone] at hlen; exact hlen) hjoin hgrid
        rw [joins_concat]
        omega
      | acked hs' => simp [hs] at hs'
    · refine h.of_stay (.inr (.inl hs)) (hstay (.inr (by simp [hpost]))) fun phase hc' => ?_
      exact hc'.court hok hs rfl hpost hc.ack hc.running hc.join hc.grid
  | txMute | established =>
    have hpre : fsm.Held := by simp [ReacFsm.Held, hs]
    rcases reacFsmStep_held ev hpre with hoff | hpost
    · exact .inl hoff
    · refine h.of_stay (by simp [hs]) (hstay (.inr ?_)) fun phase hc => ?_
      · rcases hpost with hpost | hpost <;> simp [hpost]
      · exact hc.hold (by simp [hs]) hpost

/-- Every step of a run extends the courtship it is part of. -/
theorem courtInv_at {fps : ℤ} {evs : List FsmEvent} {log : List FsmStep} {e : FsmStep}
    (he : fsmMachine.StepOf (reacFsmAt fps) evs log e) : FsmOk fps e.pre ∧ CourtInv log e.pre ∧
      e = fsmMachine.event e.pre e.input := by
  obtain ⟨⟨hok, hinv⟩, hev⟩ := fsmMachine.trace_invariant_at
    (H := fun log fsm => FsmOk fps fsm ∧ CourtInv log fsm) (L := fun _ _ => True)
    ⟨reacFsmAt_ok fps, .inl (.inl rfl)⟩ (fun _ _ ev h _ => ⟨h.1.step ev, h.2.step h.1 ev⟩)
    (fun _ _ _ => trivial) he
  exact ⟨hok, hinv, hev⟩

/-- A slave goes quiet, and then streams, only after a grant it received while courting since the
last entry to the flood, and only after it has sent every record of the escalation again. -/
theorem establishment_acknowledges_grant {fps : ℤ} {evs : List FsmEvent} {log : List FsmStep}
    {e : FsmStep} (he : fsmMachine.StepOf (reacFsmAt fps) evs log e)
    (hin : e.post.state = .txMute ∨ e.post.state = .established) :
    ∃ enter before grant after,
      fromLast entersFlood log = enter :: (before ++ grant :: after) ∧ entersFlood enter = true ∧
      grantedIn grant = true ∧ (∀ x ∈ before, grantedIn x = false) ∧ 8 ≤ joins after ∧
      ∀ phase r, escalationRecord r ∈ escalation phase after := by
  obtain ⟨hok, hinv, hev⟩ := courtInv_at he
  have hstep : e.post = (reacFsmStep e.pre e.input).1 := by rw [hev]; rfl
  -- Eight joins after the grant, in a courtship that began with the last entry to the flood.
  suffices h : ∃ enter phase before grant after, fromLast entersFlood log = enter :: phase ∧
      entersFlood enter = true ∧ Granted phase before grant after ∧ 8 ≤ joins after by
    obtain ⟨enter, phase, before, grant, after, hlast, henter, hg, hjoin⟩ := h
    exact ⟨enter, before, grant, after, by rw [hlast, hg.eq], henter, hg.granted, hg.first, hjoin,
      escalation_complete hjoin⟩
  rcases hinv with hoff | ⟨enter, phase, hlast, hent, hc⟩
  · -- From off the wire a step leads to the flood at most.
    rw [hstep] at hin
    rcases reacFsmStep_off e.input hoff with hoff' | ⟨hflood, -⟩
    · rcases hoff' with h | h | h <;> simp [h] at hin
    · simp [hflood] at hin
  · cases hc with
    | ungranted hs h0 =>
      rw [hstep] at hin
      rcases hs with hs | hs
      · rcases reacFsmStep_flooding e.input hs with h | ⟨h | ⟨h, -⟩, -⟩ <;> simp [h] at hin
      · rcases reacFsmStep_courting e.input hok hs with ⟨-, h⟩ | h | ⟨-, hone⟩ | ⟨h, -⟩
        · simp [h] at hin
        · simp [h] at hin
        · omega
        · simp [h] at hin
    | acking hs hg ha hlen hjoin hgrid =>
      rw [hstep] at hin
      rcases reacFsmStep_courting e.input hok hs with ⟨-, h⟩ | h | ⟨-, hone⟩ | ⟨h, -⟩
      · simp [h] at hin
      · simp [h] at hin
      · exact ⟨enter, phase, _, _, _, hlast, hent, hg,
          eight_joins (by rw [hone] at hlen; exact hlen) hjoin hgrid⟩
      · simp [h] at hin
    | acked hs hg hjoin => exact ⟨enter, phase, _, _, _, hlast, hent, hg, hjoin⟩

/-! ## A courtship that succeeds -/

/-- The window runs on ticks alone. -/
theorem acking_ticks {fsm : ReacFsm} (hs : fsm.state = .coldconnect) (hm : fsm.haveMaster = true)
    {n : ℕ} (hn : n < fsm.grantAck) :
    let fsm' := fsmMachine.run fsm (List.replicate n .tick)
    fsm'.state = .coldconnect ∧ fsm'.haveMaster = true ∧ fsm'.masterMac = fsm.masterMac ∧
      fsm'.grantAck = fsm.grantAck - n := by
  induction n with
  | zero => simp [hs, hm]
  | succ n ih =>
    obtain ⟨hs', hm', hmac, ha⟩ := ih (by push_cast at hn; omega)
    rw [List.replicate_succ', fsmMachine.run_concat]
    generalize fsmMachine.run fsm (List.replicate n .tick) = f at hs' hm' hmac ha
    have hpos : 0 < f.grantAck := by push_cast at hn; omega
    have hgt : f.grantAck - 1 ≠ 0 := by push_cast at hn; omega
    have hstep : reacFsmStep f .tick = coldconnectTick { f with grantAck := f.grantAck - 1 } := by
      simp [reacFsmStep, hs', courtOne, coldconnectHears, hm', hpos, hgt]
    simp only [fsmMachine, Machine.event, hstep, coldconnectTick, ReacFsm.out]
    refine ⟨hs', hm', hmac, ?_⟩
    push_cast
    omega

/-- The dwell runs on ticks alone. -/
theorem muting_ticks {fsm : ReacFsm} (hs : fsm.state = .txMute) (hm : fsm.haveMaster = true)
    {n : ℕ} (hn : n < fsm.txmuteDwell) :
    let fsm' := fsmMachine.run fsm (List.replicate n .tick)
    fsm'.state = .txMute ∧ fsm'.haveMaster = true ∧ fsm'.masterMac = fsm.masterMac ∧
      fsm'.txmuteDwell = fsm.txmuteDwell - n := by
  induction n with
  | zero => simp [hs, hm]
  | succ n ih =>
    obtain ⟨hs', hm', hmac, hd⟩ := ih (by push_cast at hn; omega)
    rw [List.replicate_succ', fsmMachine.run_concat]
    generalize fsmMachine.run fsm (List.replicate n .tick) = f at hs' hm' hmac hd
    have hgt : ¬ f.txmuteDwell - 1 ≤ 0 := by push_cast at hn; omega
    simp only [fsmMachine, Machine.event, reacFsmStep, hs', stepTxMute, muteOne, hgt, if_false,
      ReacFsm.out]
    refine ⟨trivial, hm', hmac, ?_⟩
    push_cast
    omega

/-- A desk's grant. -/
def grantOf (mac : Mac) : CtrlParsed := { kind := .grant, src := mac }

/-- The link comes up, an early grant ends the flood and a second one opens the window. -/
def courtRun (mac : Mac) : List FsmEvent := [.phyUp, .rx (grantOf mac), .rx (grantOf mac)]

/-- The window runs down to its last frame. -/
def ackRun (mac : Mac) : List FsmEvent := courtRun mac ++ List.replicate 7198 .tick

theorem ackRun_state (fps : ℤ) (mac : Mac) :
    let fsm := fsmMachine.run (reacFsmAt fps) (ackRun mac)
    fsm.state = .coldconnect ∧ fsm.haveMaster = true ∧ fsm.masterMac = mac ∧ fsm.grantAck = 1 := by
  have hcourt : let fsm := fsmMachine.run (reacFsmAt fps) (courtRun mac)
      fsm.state = .coldconnect ∧ fsm.haveMaster = true ∧ fsm.masterMac = mac ∧
        fsm.grantAck = 7199 := by
    simp [courtRun, grantOf, Machine.run, fsmMachine, reacFsmStep, reacFsmAt, reacFsmInit, floodTick,
      armFlood, ReacFsm.out, stepFlood, heardMaster, isMasterFrame, learnMaster, armColdconnect,
      coldconnectTick, coldconnectHears, courtOne, grantAckFrames]
  rw [ackRun, fsmMachine.run_append]
  generalize fsmMachine.run (reacFsmAt fps) (courtRun mac) = f at hcourt
  obtain ⟨hs, hm, hmac, ha⟩ := hcourt
  obtain ⟨hs', hm', hmac', ha'⟩ := acking_ticks hs hm (n := 7198) (by omega)
  exact ⟨hs', hm', hmac'.trans hmac, by omega⟩

/-- The step that closes the window. -/
theorem acked_step {fsm : ReacFsm} (hs : fsm.state = .coldconnect) (hm : fsm.haveMaster = true)
    (ha : fsm.grantAck = 1) :
    let post := (fsmMachine.event fsm .tick).post
    post.state = .txMute ∧ post.txmuteDwell = 800 ∧ post.haveMaster = true ∧
      post.masterMac = fsm.masterMac := by
  simp [fsmMachine, reacFsmStep, hs, courtOne, coldconnectHears, hm, ha, ReacFsm.out,
    txmuteDwellReload]

theorem establishment_acknowledges_grant_ackRun :
    ∃ log e, fsmMachine.StepOf (reacFsmAt 8000) (ackRun consoleMac ++ [.tick]) log e ∧
      e.post.state = .txMute ∧ ∃ enter before grant after,
        fromLast entersFlood log = enter :: (before ++ grant :: after) ∧ 8 ≤ joins after := by
  obtain ⟨hs, hm, -, ha⟩ := ackRun_state 8000 consoleMac
  have he := fsmMachine.stepOf_last (reacFsmAt 8000) (ackRun consoleMac) .tick
  have hpost := (acked_step hs hm ha).1
  obtain ⟨enter, before, grant, after, hlast, -, -, -, hjoin, -⟩ :=
    establishment_acknowledges_grant he (.inl hpost)
  exact ⟨_, _, he, hpost, enter, before, grant, after, hlast, hjoin⟩

/-! ## A courtship in vain -/

/-- The number of frames the steps put on the wire. -/
def framesSent (steps : List FsmStep) : ℕ := steps.countP (·.out.action.sends)

theorem framesPerS_of_period {fps : ℤ} (hfps : 0 < fps) {fsm : ReacFsm} (hok : FsmOk fps fsm) :
    fsm.framesPerS = fps := by
  simp [ReacFsm.framesPerS, hok.period, hfps]

/-- The budget is four seconds, or less where their number of frames does not fit an `int`. -/
theorem courtBudget_le {fps : ℤ} (hfps : 0 < fps) {fsm : ReacFsm} (hok : FsmOk fps fsm) :
    fsm.courtBudget ≤ 4 * fps := by
  rw [ReacFsm.courtBudget, framesPerS_of_period hfps hok, coldconnectBudgetS]
  exact wrapInt_le (by omega)

theorem backoffSteps_of_fits {fps : ℤ} (hfps : 0 < fps) (hfits : 10 * fps < 2147483648)
    {fsm : ReacFsm} (hok : FsmOk fps fsm) : fsm.backoffSteps = 10 * fps := by
  rw [ReacFsm.backoffSteps, framesPerS_of_period hfps hok, backoffS]
  exact wrapInt_of_lt (by omega) hfits

/-- A step that leaves the courtship is its last one. -/
theorem courtship_left {fsm : ReacFsm} {ev : FsmEvent} {evs : List FsmEvent}
    (hs : ∀ e ∈ fsmMachine.trace fsm (ev :: evs), e.pre.state = .coldconnect)
    (hoff : (reacFsmStep fsm ev).1.OffWire) : evs = [] := by
  cases evs with
  | nil => rfl
  | cons ev' evs =>
    have hnext : (reacFsmStep fsm ev).1.state = .coldconnect :=
      hs _ (List.mem_cons_of_mem _ (List.mem_cons_self ..))
    rcases hoff with h | h | h <;> simp [h] at hnext

/-- What an ungranted courtship with `left` frames of its budget may still do. -/
def SpendsAtMost (left : ℤ) (steps : List FsmStep) : Prop :=
  (framesSent steps : ℤ) ≤ left ∧ (steps.length : ℤ) ≤ left + 1 ∧
    ∀ l ∈ steps.getLast?, l.post.state ≠ .coldconnect →
      l.post.state = .backoff ∨ l.input = .phyDown

/-- The last step of a courtship sends nothing. -/
theorem SpendsAtMost.last {fsm : ReacFsm} {ev : FsmEvent} {left : ℤ} (hleft : 0 ≤ left)
    (hoff : (reacFsmStep fsm ev).1.OffWire)
    (hto : (reacFsmStep fsm ev).1.state = .backoff ∨ ev = .phyDown) :
    SpendsAtMost left [fsmMachine.event fsm ev] := by
  have hquiet := reacFsmStep_offWire_quiet hoff
  refine ⟨?_, ?_, ?_⟩
  · simp only [framesSent, List.countP_singleton, fsmMachine.event_out, fsmMachine_step, hquiet]
    exact hleft
  · rw [List.length_singleton]
    omega
  · intro l hl _
    obtain rfl : fsmMachine.event fsm ev = l := by simpa using hl
    exact hto

/-- A step that goes on courting spends one frame. -/
theorem SpendsAtMost.cons {fsm : ReacFsm} {ev : FsmEvent} {left : ℤ} {steps : List FsmStep}
    (h : SpendsAtMost (left - 1) steps)
    (hpost : (reacFsmStep fsm ev).1.state = .coldconnect) :
    SpendsAtMost left (fsmMachine.event fsm ev :: steps) := by
  obtain ⟨hsent, hlen, hlast⟩ := h
  refine ⟨?_, ?_, ?_⟩
  · rw [framesSent, List.countP_cons]
    rw [framesSent] at hsent
    split_ifs <;> omega
  · rw [List.length_cons]
    omega
  · intro l hl hne
    cases steps with
    | nil =>
      obtain rfl : fsmMachine.event fsm ev = l := by simpa using hl
      exact absurd hpost hne
    | cons e es =>
      rw [List.getLast?_cons_cons] at hl
      exact hlast l hl hne

/-- The steps of an ungranted courtship spend its budget; it is left for the pause, or by a link
that goes down. -/
theorem courtship_spends {fps : ℤ} (hfps : 0 < fps) {fsm : ReacFsm} (hok : FsmOk fps fsm)
    (ha : fsm.grantAck = 0) (hc : fsm.coldconnectFrames ≤ 4 * fps) {evs : List FsmEvent}
    (hs : ∀ e ∈ fsmMachine.trace fsm evs, e.pre.state = .coldconnect)
    (hg : ∀ e ∈ fsmMachine.trace fsm evs, grantedIn e = false) :
    SpendsAtMost (4 * fps - fsm.coldconnectFrames) (fsmMachine.trace fsm evs) := by
  induction evs generalizing fsm with
  | nil =>
    refine ⟨?_, ?_, by simp⟩ <;> simp [framesSent] <;> omega
  | cons ev evs ih =>
    have hpre : fsm.state = .coldconnect := hs _ (List.mem_cons_self ..)
    have hng : ev.isGrant = false := by
      have := hg _ (List.mem_cons_self ..)
      simpa [grantedIn, hpre] using this
    rcases reacFsmStep_courting ev hok hpre with ⟨hev, hdown⟩ | hback | ⟨-, hone⟩ | ⟨hcold, hcts⟩
    · obtain rfl := courtship_left hs (.inl hdown)
      exact .last (by omega) (.inl hdown) (.inr hev)
    · obtain rfl := courtship_left hs (.inr (.inr hback))
      exact .last (by omega) (.inr (.inr hback)) (.inl hback)
    · omega
    · have hbud := hcts.budget hng ha
      have hle := courtBudget_le hfps hok
      have hack := hcts.ack
      rw [if_neg (by simp [hng]), if_neg (by omega)] at hack
      have hrest := ih (hok.step ev) (hack.trans ha) (by rw [hcts.spent]; omega)
        (fun e he => hs e (List.mem_cons_of_mem _ he)) (fun e he => hg e (List.mem_cons_of_mem _ he))
      rw [hcts.spent] at hrest
      refine .cons ?_ hcold
      have hleft : 4 * fps - (fsm.coldconnectFrames + 1) = 4 * fps - fsm.coldconnectFrames - 1 := by
        omega
      rwa [hleft] at hrest

/-- The pause is silent, and the counter stands still, whatever is heard. -/
theorem pause_quiet {fsm : ReacFsm} (hs : fsm.state = .backoff) {evs : List FsmEvent}
    (hlen : evs.length < fsm.backoff) (hup : ∀ ev ∈ evs, ev ≠ .phyDown) :
    (∀ e ∈ fsmMachine.trace fsm evs, e.out.action.sends = false ∧ e.post.state = .backoff ∧
      e.post.counter = e.pre.counter) ∧
    (fsmMachine.run fsm evs).state = .backoff ∧
    (fsmMachine.run fsm evs).backoff = fsm.backoff - evs.length := by
  induction evs generalizing fsm with
  | nil => simp [hs]
  | cons ev evs ih =>
    rw [List.length_cons] at hlen
    have hstep : reacFsmStep fsm ev = ({ fsm with backoff := fsm.backoff - 1 }).out .stop :=
      (reacFsmStep_resting hs (hup ev (List.mem_cons_self ..))).1 (by omega)
    have hs' : (reacFsmStep fsm ev).1.state = .backoff := by rw [hstep]; exact hs
    have hb' : (reacFsmStep fsm ev).1.backoff = fsm.backoff - 1 := by rw [hstep]; rfl
    obtain ⟨hquiet, hstate, hleft⟩ := ih hs' (by omega)
      fun ev' hev' => hup ev' (List.mem_cons_of_mem _ hev')
    refine ⟨?_, by rw [fsmMachine.run_cons]; exact hstate, ?_⟩
    · intro e he
      rcases List.mem_cons.mp he with rfl | he
      · refine ⟨?_, hs', ?_⟩
        · simp [hstep, ReacFsm.out, FsmAction.sends]
        · simp [hstep, ReacFsm.out]
      · exact hquiet e he
    · rw [fsmMachine.run_cons, fsmMachine_step, hleft, hb', List.length_cons]
      omega

/-- Broadcasting ends where the courtship begins. -/
theorem floods_end {fps : ℤ} {fsm : ReacFsm} (hok : FsmOk fps fsm) (hs : fsm.state = .coldconnect)
    {evs : List FsmEvent} (hflood : ∀ e ∈ fsmMachine.trace fsm evs, e.out.action = .floodBcast) :
    evs = [] := by
  cases evs with
  | nil => rfl
  | cons ev evs =>
    exact absurd (hflood _ (List.mem_cons_self ..)) (reacFsmStep_courting_unicasts hok hs)

/-- From a flood with a known master, the burst is what is left of it. -/
theorem burst_left {fps : ℤ} {fsm : ReacFsm} (hok : FsmOk fps fsm) (hs : fsm.state = .floodAnnounce)
    (hm : fsm.haveMaster = true) {evs : List FsmEvent}
    (hflood : ∀ e ∈ fsmMachine.trace fsm evs,
      e.out.action = .floodBcast ∧ e.post.haveMaster = true) :
    (evs.length : ℤ) ≤ floodBurst - fsm.floodFrames := by
  induction evs generalizing fsm with
  | nil =>
    have := (hok.flood hs).2.2 hm
    rw [List.length_nil]
    omega
  | cons ev evs ih =>
    rw [fsmMachine.trace_cons] at hflood
    obtain ⟨ha, hm'⟩ := hflood _ (List.mem_cons_self ..)
    have hok' := hok.step ev
    rcases reacFsmStep_floods hok ha hm' with ⟨hs', -, hff⟩ | hcold
    · have := ih hok' hs' hm' fun e he => hflood e (List.mem_cons_of_mem _ he)
      have hff := hff hs hm
      rw [List.length_cons]
      omega
    · -- The next step of a courtship is not a broadcast.
      have hnil := floods_end hok' hcold fun e he => (hflood e (List.mem_cons_of_mem _ he)).1
      have := (hok.flood hs).2.2 hm
      subst hnil
      rw [List.length_singleton]
      omega

/-- A stretch of broadcasts with a known master is no longer than the burst. -/
theorem burst_bounded {fps : ℤ} {fsm : ReacFsm} (hok : FsmOk fps fsm) {evs : List FsmEvent}
    (hflood : ∀ e ∈ fsmMachine.trace fsm evs,
      e.out.action = .floodBcast ∧ e.post.haveMaster = true) : (evs.length : ℤ) ≤ floodBurst := by
  cases evs with
  | nil => simp [floodBurst]
  | cons ev evs =>
    rw [fsmMachine.trace_cons] at hflood
    obtain ⟨ha, hm⟩ := hflood _ (List.mem_cons_self ..)
    have hok' := hok.step ev
    rcases reacFsmStep_floods hok ha hm with ⟨hs, hff, -⟩ | hcold
    · have hleft := burst_left hok' hs hm fun e he => hflood e (List.mem_cons_of_mem _ he)
      rw [List.length_cons]
      omega
    · have hnil := floods_end hok' hcold fun e he => (hflood e (List.mem_cons_of_mem _ he)).1
      subst hnil
      simp [floodBurst]

/-- A courtship begins with nothing granted and at most one frame spent. -/
theorem courtship_begins {fps : ℤ} {fsm : ReacFsm} {ev : FsmEvent} (hok : FsmOk fps fsm)
    (hpre : fsm.state ≠ .coldconnect) (hpost : (reacFsmStep fsm ev).1.state = .coldconnect) :
    (reacFsmStep fsm ev).1.grantAck = 0 ∧ (reacFsmStep fsm ev).1.coldconnectFrames ≤ 1 := by
  cases hs : fsm.state with
  | coldconnect => exact absurd hs hpre
  | floodAnnounce =>
    rcases reacFsmStep_flooding ev hs with h | ⟨h | ⟨-, hc⟩, ha⟩
    · simp [h] at hpost
    · simp [h] at hpost
    · exact ⟨ha.trans (hok.flood hs).1, hc⟩
  | phyDown | drop | backoff =>
    have hoff : fsm.OffWire := by simp [ReacFsm.OffWire, hs]
    rcases reacFsmStep_off ev hoff with h | ⟨h, -⟩
    · rcases h with h | h | h <;> simp [h] at hpost
    · simp [h] at hpost
  | txMute | established =>
    have hheld : fsm.Held := by simp [ReacFsm.Held, hs]
    rcases reacFsmStep_held ev hheld with h | h
    · rcases h with h | h | h <;> simp [h] at hpost
    · rcases h with h | h <;> simp [h] at hpost

/-- The state in which a stay in the cold-connect phase begins. -/
theorem courtship_start {fps : ℤ} {evs : List FsmEvent}
    (hhere : (fsmMachine.run (reacFsmAt fps) evs).state = .coldconnect)
    (hfirst : ∀ l ∈ (fsmMachine.trace (reacFsmAt fps) evs).getLast?, l.pre.state ≠ .coldconnect) :
    (fsmMachine.run (reacFsmAt fps) evs).grantAck = 0 ∧
      (fsmMachine.run (reacFsmAt fps) evs).coldconnectFrames ≤ 1 := by
  cases evs using List.reverseRecOn with
  | nil => exact ⟨rfl, by simp [reacFsmAt, reacFsmInit]⟩
  | append_singleton evs ev =>
    rw [fsmMachine.trace_concat, List.getLast?_concat] at hfirst
    rw [fsmMachine.run_concat] at hhere ⊢
    exact courtship_begins (fsmOk_run fps evs) (hfirst _ rfl) hhere

/-- An ungranted stay in the cold-connect phase. -/
theorem courtship_bounded {fps : ℤ} (hfps : 0 < fps) {evs₁ evs₂ : List FsmEvent}
    (hs : ∀ e ∈ fsmMachine.trace (fsmMachine.run (reacFsmAt fps) evs₁) evs₂,
      e.pre.state = .coldconnect)
    (hfirst : ∀ l ∈ (fsmMachine.trace (reacFsmAt fps) evs₁).getLast?, l.pre.state ≠ .coldconnect)
    (hg : ∀ e ∈ fsmMachine.trace (fsmMachine.run (reacFsmAt fps) evs₁) evs₂, grantedIn e = false) :
    SpendsAtMost (4 * fps) (fsmMachine.trace (fsmMachine.run (reacFsmAt fps) evs₁) evs₂) := by
  cases evs₂ with
  | nil => refine ⟨?_, ?_, by simp⟩ <;> simp [framesSent] <;> omega
  | cons ev evs =>
    have hok := fsmOk_run fps evs₁
    have hhere : (fsmMachine.run (reacFsmAt fps) evs₁).state = .coldconnect :=
      hs _ (List.mem_cons_self ..)
    obtain ⟨ha, hone⟩ := courtship_start hhere hfirst
    obtain ⟨-, -, -, -, -, hc⟩ := hok.court hhere
    obtain ⟨hsent, hlen, hlast⟩ := courtship_spends hfps hok ha (by omega) hs hg
    exact ⟨by omega, by omega, hlast⟩

/-- A pause, from the step that begins it. -/
theorem pause_from {fps : ℤ} (hfps : 0 < fps) (hfits : 10 * fps < 2147483648) {fsm : ReacFsm}
    (hok : FsmOk fps fsm) {ev : FsmEvent} {evs : List FsmEvent} (hpre : fsm.state ≠ .backoff)
    (hpost : (reacFsmStep fsm ev).1.state = .backoff) (hup : ∀ ev' ∈ evs, ev' ≠ .phyDown) :
    ((evs.length + 1 : ℤ) ≤ 10 * fps → ∀ e ∈ fsmMachine.trace fsm (ev :: evs),
      e.out.action.sends = false ∧ e.post.counter = e.pre.counter ∧ e.post.state = .backoff) ∧
    ((evs.length + 1 : ℤ) = 10 * fps →
      (fsmMachine.run fsm (ev :: evs)).state = .backoff ∧
      (fsmMachine.run fsm (ev :: evs)).backoff = 1) := by
  obtain ⟨hback, hcount⟩ := reacFsmStep_gaveUp hpre hpost
  rw [backoffSteps_of_fits hfps hfits hok] at hback
  constructor
  · intro hlen e he
    obtain ⟨hquiet, -⟩ := pause_quiet hpost (by omega) hup
    rcases List.mem_cons.mp he with rfl | he
    · exact ⟨reacFsmStep_offWire_quiet (.inr (.inr hpost)), hcount, hpost⟩
    · obtain ⟨h1, h2, h3⟩ := hquiet e he
      exact ⟨h1, h3, h2⟩
  · intro hlen
    obtain ⟨-, hstate, hleft⟩ := pause_quiet hpost (by omega) hup
    exact ⟨hstate, by rw [fsmMachine.run_cons, fsmMachine_step, hleft]; omega⟩

/-- A courtship without a grant is bounded, and unless the link goes down it ends in a pause. The
pause is silent whatever is heard, for ten seconds where their number of steps fits an `int`. A flood
at a known master is bounded by its burst. -/
theorem courtship_bounded_then_silent {fps : ℤ} (hfps : 0 < fps) {evs : List FsmEvent}
    {before stretch after : List FsmStep}
    (htrace : fsmMachine.trace (reacFsmAt fps) evs = before ++ stretch ++ after) :
    ((∀ e ∈ stretch, e.pre.state = .coldconnect) →
      (∀ l ∈ before.getLast?, l.pre.state ≠ .coldconnect) →
      (∀ e ∈ stretch, grantedIn e = false) →
      framesSent stretch ≤ 4 * fps ∧ stretch.length ≤ 4 * fps + 1 ∧
        ∀ l ∈ stretch.getLast?, l.post.state ≠ .coldconnect →
          l.post.state = .backoff ∨ l.input = .phyDown) ∧
    (10 * fps < 2147483648 → ∀ enter rest, stretch = enter :: rest →
      enter.pre.state ≠ .backoff → enter.post.state = .backoff →
      (∀ e ∈ rest, e.input ≠ .phyDown) →
      (stretch.length ≤ 10 * fps → ∀ e ∈ stretch,
        e.out.action.sends = false ∧ e.post.counter = e.pre.counter ∧ e.post.state = .backoff) ∧
      (stretch.length = 10 * fps → ∀ e ∈ after.head?, e.input ≠ .phyDown →
        e.post.state = .floodAnnounce)) ∧
    ((∀ e ∈ stretch, e.out.action = .floodBcast ∧ e.post.haveMaster = true) →
      (stretch.length : ℤ) ≤ 5460) := by
  rw [List.append_assoc] at htrace
  obtain ⟨evs₁, evs', rfl, rfl, hrest⟩ := fsmMachine.trace_eq_append htrace
  obtain ⟨evs₂, evs₃, rfl, rfl, rfl⟩ := fsmMachine.trace_eq_append hrest.symm
  have hok := fsmOk_run fps evs₁
  have hlen : (fsmMachine.trace (fsmMachine.run (reacFsmAt fps) evs₁) evs₂).length = evs₂.length :=
    fsmMachine.trace_length _ _
  refine ⟨?_, ?_, ?_⟩
  · intro hs hfirst hg
    exact courtship_bounded hfps hs hfirst hg
  · intro hfits enter rest heq hpre hpost hup
    rw [hlen]
    generalize fsmMachine.run (reacFsmAt fps) evs₁ = fsm at *
    cases evs₂ with
    | nil => simp at heq
    | cons ev evs =>
      obtain ⟨rfl, rfl⟩ := List.cons.inj heq
      have hup' : ∀ ev' ∈ evs, ev' ≠ .phyDown := by
        intro ev' hev'
        obtain ⟨e, he, rfl⟩ := fsmMachine.mem_inputs hev'
        exact hup e he
      obtain ⟨hquiet, hend⟩ := pause_from hfps hfits hok hpre hpost hup'
      refine ⟨?_, ?_⟩
      · intro hle
        exact hquiet (by rw [List.length_cons] at hle; omega)
      · intro hle e he hev
        obtain ⟨hs, hb⟩ := hend (by rw [List.length_cons] at hle; omega)
        cases evs₃ with
        | nil => simp at he
        | cons ev₃ evs₃ =>
          obtain rfl : fsmMachine.event (fsmMachine.run fsm (ev :: evs)) ev₃ = e := by simpa using he
          exact (reacFsmStep_resting hs hev).2 (by omega)
  · intro hflood
    rw [hlen]
    exact burst_bounded hok hflood

/-- An early grant ends the flood and no other grant follows; a grant comes in the pause. -/
def vainRun : List FsmEvent :=
  [.phyUp, .rx (grantOf consoleMac), .tick, .tick, .tick, .tick] ++
    .rx (grantOf consoleMac) :: List.replicate 8 .tick ++ [.tick]

theorem courtship_bounded_then_silent_vainRun :
    let log := fsmMachine.trace (reacFsmAt 1) vainRun
    framesSent ((log.drop 2).take 4) ≤ (4 * 1 : ℤ) ∧
      (∀ l ∈ ((log.drop 2).take 4).getLast?, l.post.state = .backoff) ∧
      (∀ e ∈ (log.drop 5).take 10, e.out.action.sends = false ∧ e.post.state = .backoff) ∧
      ∀ e ∈ (log.drop 15).head?, e.post.state = .floodAnnounce := by
  have hcourt : fsmMachine.trace (reacFsmAt 1) vainRun =
      (fsmMachine.trace (reacFsmAt 1) vainRun).take 2 ++
        ((fsmMachine.trace (reacFsmAt 1) vainRun).drop 2).take 4 ++
        (fsmMachine.trace (reacFsmAt 1) vainRun).drop 6 := rfl
  have hpause : fsmMachine.trace (reacFsmAt 1) vainRun =
      (fsmMachine.trace (reacFsmAt 1) vainRun).take 5 ++
        ((fsmMachine.trace (reacFsmAt 1) vainRun).drop 5).take 10 ++
        (fsmMachine.trace (reacFsmAt 1) vainRun).drop 15 := rfl
  obtain ⟨hsent, -, hlast⟩ := (courtship_bounded_then_silent (by decide) hcourt).1
    (by intro e he; fin_cases he <;> rfl) (by intro l hl; cases hl; exact nofun)
    (by intro e he; fin_cases he <;> rfl)
  obtain ⟨hquiet, hend⟩ := (courtship_bounded_then_silent (by decide) hpause).2.1 (by decide) _ _ rfl
    nofun rfl (by intro e he; fin_cases he <;> exact nofun)
  refine ⟨hsent, ?_, ?_, ?_⟩
  · intro l hl
    rcases hlast l hl (by cases hl; exact nofun) with h | h
    · exact h
    · cases hl
      cases h
  · intro e he
    obtain ⟨hnone, -, hs⟩ := hquiet (by decide) e he
    exact ⟨hnone, hs⟩
  · intro e he
    exact hend (by decide) e he (by cases he; exact nofun)

/-- A courtship may also end because the link goes down. -/
theorem courtship_link_down :
    ∃ before stretch after, fsmMachine.trace (reacFsmAt 8000)
        [.phyUp, .rx (grantOf consoleMac), .tick, .phyDown, .tick] = before ++ stretch ++ after ∧
      (∀ e ∈ stretch, e.pre.state = .coldconnect ∧ grantedIn e = false) ∧
      (∀ l ∈ before.getLast?, l.pre.state ≠ .coldconnect) ∧
      (∀ e ∈ after.head?, e.pre.state ≠ .coldconnect) ∧
      ∃ l ∈ stretch.getLast?, l.post.state ≠ .backoff := by
  refine ⟨_, _, _, ((List.take_append_drop 2 _).symm.trans (congrArg _ (List.take_append_drop 2 _).symm)).trans
    (List.append_assoc ..).symm, ?_, ?_, ?_, ?_⟩
  · intro e he
    fin_cases he <;> exact ⟨rfl, rfl⟩
  · intro l hl
    cases hl
    exact nofun
  · intro e he
    cases he
    exact nofun
  · exact ⟨_, rfl, nofun⟩

/-! ## A master that has gone -/

/-- The event is an idle frame period. -/
def FsmEvent.isTick : FsmEvent → Bool
  | .tick => true
  | _ => false

/-- The event is an idle frame period or the reception of a frame of another source than `mac`. -/
def FsmEvent.NotFrom (mac : Mac) (ev : FsmEvent) : Prop :=
  ev = .tick ∨ ∃ p, ev = .rx p ∧ p.src ≠ mac

/-- The event is the reception of master evidence. -/
def FsmEvent.isMasterRx : FsmEvent → Bool
  | .rx p => isMasterFrame p.kind
  | _ => false

/-- A tick counts the link down; the last one drops it. -/
theorem held_tick {fsm : ReacFsm} (hs : fsm.state = .established) :
    if fsm.linkCheck ≤ 1 then (reacFsmStep fsm .tick).1.state = .drop
    else (reacFsmStep fsm .tick).1.state = .established ∧
      (reacFsmStep fsm .tick).1.linkCheck = fsm.linkCheck - 1 ∧
      (reacFsmStep fsm .tick).1.masterMac = fsm.masterMac := by
  have hstep : reacFsmStep fsm .tick = establishedTick fsm := by simp [reacFsmStep, hs, stepEstablished]
  rw [hstep, establishedTick]
  by_cases hl : fsm.linkCheck ≤ 1
  · rw [if_pos hl, if_pos (by simp only; omega)]
    rfl
  · rw [if_neg hl, if_neg (by simp only; omega), audioOne_fst]
    exact ⟨hs, rfl, rfl⟩

/-- A frame of another source drops the link if it is master evidence, and else leaves the
countdown where it stands. -/
theorem held_foreign {fps : ℤ} {fsm : ReacFsm} (hok : FsmOk fps fsm) (hs : fsm.state = .established)
    {p : CtrlParsed} (hsrc : p.src ≠ fsm.masterMac) :
    if isMasterFrame p.kind then (reacFsmStep fsm (.rx p)).1.state = .drop
    else (reacFsmStep fsm (.rx p)).1.state = .established ∧
      (reacFsmStep fsm (.rx p)).1.linkCheck = fsm.linkCheck ∧
      (reacFsmStep fsm (.rx p)).1.masterMac = fsm.masterMac := by
  have hm := (hok.held hs).1
  have hstep : reacFsmStep fsm (.rx p) = establishedRx fsm p := by
    simp [reacFsmStep, hs, stepEstablished]
  rw [hstep, establishedRx]
  by_cases hk : isMasterFrame p.kind = true
  · rw [if_pos hk, if_pos ⟨hm, hsrc, hk⟩]
    rfl
  · have hnot : ¬ (p.kind = .masterHb ∨ p.kind = .masterAnnounce) := by
      intro h
      rcases h with h | h <;> simp [isMasterFrame, h] at hk
    rw [if_neg hk, if_neg (by simp [hk]), if_neg hnot, audioOne_fst]
    exact ⟨hs, rfl, rfl⟩

/-- Without frames of the master the link is dropped exactly by master evidence of another source or
by the countdown, which runs on ticks only. -/
theorem held_left_iff {fps : ℤ} {fsm : ReacFsm} (hok : FsmOk fps fsm) (hs : fsm.state = .established)
    {evs : List FsmEvent} (hothers : ∀ ev ∈ evs, ev.NotFrom fsm.masterMac) :
    (∃ k ≤ evs.length, (fsmMachine.run fsm (evs.take k)).state ≠ .established) ↔
      (∃ ev ∈ evs, ev.isMasterRx = true) ∨ fsm.linkCheck ≤ evs.countP (·.isTick) := by
  induction evs generalizing fsm with
  | nil =>
    have := (hok.held hs).2.1
    simp [hs]
    omega
  | cons ev evs ih =>
    -- The first step either leaves at once or leads to a state of the same kind.
    have hrest (hs' : (reacFsmStep fsm ev).1.state = .established)
        (hmac : (reacFsmStep fsm ev).1.masterMac = fsm.masterMac) :
        (∃ k ≤ (ev :: evs).length, (fsmMachine.run fsm ((ev :: evs).take k)).state ≠ .established) ↔
          (∃ ev' ∈ evs, ev'.isMasterRx = true) ∨
            (reacFsmStep fsm ev).1.linkCheck ≤ evs.countP (·.isTick) := by
      rw [← ih (hok.step ev) hs' (by
        intro ev' hev'
        rw [hmac]
        exact hothers ev' (List.mem_cons_of_mem _ hev'))]
      constructor
      · rintro ⟨k, hk, hne⟩
        cases k with
        | zero => exact absurd hs hne
        | succ k => exact ⟨k, by simpa using hk, hne⟩
      · rintro ⟨k, hk, hne⟩
        exact ⟨k + 1, by simpa using hk, hne⟩
    have hleft (hdrop : (reacFsmStep fsm ev).1.state = .drop) :
        ∃ k ≤ (ev :: evs).length, (fsmMachine.run fsm ((ev :: evs).take k)).state ≠ .established :=
      ⟨1, by simp, by simp [hdrop]⟩
    rcases hothers ev (List.mem_cons_self ..) with rfl | ⟨p, rfl, hsrc⟩
    · have htick := held_tick hs
      have hcount : ((FsmEvent.tick :: evs).countP (·.isTick) : ℤ) = evs.countP (·.isTick) + 1 := by
        simp [FsmEvent.isTick]
      rw [hcount]
      split_ifs at htick with hl
      · refine iff_of_true (hleft htick) (.inr ?_)
        omega
      · rw [hrest htick.1 htick.2.2, htick.2.1]
        simp only [List.mem_cons, exists_eq_or_imp, FsmEvent.isMasterRx]
        constructor
        · rintro (h | h)
          · exact .inl (.inr h)
          · exact .inr (by omega)
        · rintro ((h | h) | h)
          · cases h
          · exact .inl h
          · exact .inr (by omega)
    · have hrx := held_foreign hok hs hsrc
      have hcount : (FsmEvent.rx p :: evs).countP (·.isTick) = evs.countP (·.isTick) := by
        simp [FsmEvent.isTick]
      rw [hcount]
      split_ifs at hrx with hk
      · exact iff_of_true (hleft hrx) (.inl ⟨_, List.mem_cons_self .., hk⟩)
      · rw [hrest hrx.1 hrx.2.2, hrx.2.1]
        simp [FsmEvent.isMasterRx, hk]

/-- A slave that has lost its master notices within 600 steps exactly if one of the frames it hears
meanwhile is master evidence, or enough of the steps are ticks to run its countdown out. -/
theorem departed_master_noticed_iff {fps : ℤ} {evs others : List FsmEvent} {mac : Mac}
    (hs : (fsmMachine.run (reacFsmAt fps) evs).state = .established)
    (hmac : (fsmMachine.run (reacFsmAt fps) evs).masterMac = mac)
    (hlen : others.length = 600) (hothers : ∀ ev ∈ others, ev.NotFrom mac) :
    (∃ k ≤ 600, (fsmMachine.run (reacFsmAt fps) (evs ++ others.take k)).state ≠ .established) ↔
      (∃ ev ∈ others, ev.isMasterRx = true) ∨
        (fsmMachine.run (reacFsmAt fps) evs).linkCheck ≤ others.countP (·.isTick) := by
  subst hmac
  simp only [fsmMachine.run_append]
  rw [← hlen]
  exact held_left_iff (fsmOk_run fps evs) hs hothers

/-- The window closes and the dwell runs out. -/
def dwellRun : List FsmEvent := .tick :: (List.replicate 799 .tick ++ [.tick])

theorem dwellRun_state {fsm : ReacFsm} (hs : fsm.state = .coldconnect) (hm : fsm.haveMaster = true)
    (ha : fsm.grantAck = 1) :
    let fsm' := fsmMachine.run fsm dwellRun
    fsm'.state = .established ∧ fsm'.masterMac = fsm.masterMac ∧ fsm'.linkCheck = 600 := by
  obtain ⟨hs₁, hd₁, hm₁, hmac₁⟩ := acked_step hs hm ha
  rw [dwellRun, fsmMachine.run_cons, fsmMachine.run_concat, ← fsmMachine.event_post]
  generalize (fsmMachine.event fsm .tick).post = f₁ at hs₁ hd₁ hm₁ hmac₁ ⊢
  obtain ⟨hs₂, -, hmac₂, hd₂⟩ := muting_ticks hs₁ hm₁ (n := 799) (by omega)
  generalize fsmMachine.run f₁ (List.replicate 799 .tick) = f₂ at hs₂ hmac₂ hd₂ ⊢
  have hone : f₂.txmuteDwell - 1 ≤ 0 := by omega
  simp [reacFsmStep, hs₂, stepTxMute, muteOne, hone, ReacFsm.out, linkcheckReload, hmac₂, hmac₁]

/-- A courtship that succeeds, up to the first frame of the stream. -/
def heldRun (mac : Mac) : List FsmEvent := ackRun mac ++ dwellRun

theorem heldRun_state (fps : ℤ) (mac : Mac) :
    let fsm := fsmMachine.run (reacFsmAt fps) (heldRun mac)
    fsm.state = .established ∧ fsm.masterMac = mac ∧ fsm.linkCheck = 600 := by
  obtain ⟨hs, hm, hmac, ha⟩ := ackRun_state fps mac
  obtain ⟨hs', hmac', hl'⟩ := dwellRun_state hs hm ha
  rw [heldRun, fsmMachine.run_append]
  exact ⟨hs', hmac'.trans hmac, hl'⟩

/-- Audio frames of the stagebox next to us. -/
def fillers (n : ℕ) : List FsmEvent := List.replicate n (.rx { kind := .filler, src := neighbourMac })

theorem fillers_facts (n : ℕ) : (fillers n).length = n ∧ (∀ ev ∈ fillers n, ev.NotFrom consoleMac) ∧
    (¬ ∃ ev ∈ fillers n, ev.isMasterRx = true) ∧ (fillers n).countP (·.isTick) = 0 := by
  refine ⟨by simp [fillers], ?_, ?_, ?_⟩
  · intro ev hev
    rw [fillers, List.mem_replicate] at hev
    exact .inr ⟨_, hev.2, by decide⟩
  · rintro ⟨ev, hev, hrx⟩
    rw [fillers, List.mem_replicate] at hev
    rw [hev.2] at hrx
    exact absurd hrx (by decide)
  · simp [fillers, FsmEvent.isTick, List.countP_replicate]

theorem departed_master_noticed_iff_fillers :
    ¬ ((∃ k ≤ 600, (fsmMachine.run (reacFsmAt 8000)
        (heldRun consoleMac ++ (fillers 600).take k)).state ≠ .established) ∨
      (∃ ev ∈ fillers 600, ev.isMasterRx = true)) := by
  obtain ⟨hs, hmac, hl⟩ := heldRun_state 8000 consoleMac
  obtain ⟨hlen, hothers, hno, hticks⟩ := fillers_facts 600
  rw [departed_master_noticed_iff hs hmac hlen hothers, hl, hticks]
  simpa using hno

/-- The slave goes on streaming to a master that has gone while a stagebox talks. -/
theorem departed_master_unnoticed :
    (fsmMachine.run (reacFsmAt 8000) (heldRun consoleMac)).state = .established ∧
    (fsmMachine.run (reacFsmAt 8000) (heldRun consoleMac)).masterMac = consoleMac ∧
    (fillers 600).length = 600 ∧ (∀ ev ∈ fillers 600, ev.NotFrom consoleMac) ∧
    ∀ k ≤ 600, (fsmMachine.run (reacFsmAt 8000)
      (heldRun consoleMac ++ (fillers 600).take k)).state = .established := by
  obtain ⟨hs, hmac, hl⟩ := heldRun_state 8000 consoleMac
  obtain ⟨hlen, hothers, hno, hticks⟩ := fillers_facts 600
  refine ⟨hs, hmac, hlen, hothers, ?_⟩
  intro k hk
  by_contra hne
  rw [fsmMachine.run_append] at hne
  rw [← hlen] at hk
  rw [← hmac] at hothers
  rcases (held_left_iff (fsmOk_run 8000 _) hs hothers).mp ⟨k, hk, hne⟩ with hrx | hcount
  · exact hno hrx
  · rw [hl, hticks] at hcount
    omega

end Libreac
