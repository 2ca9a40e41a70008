import Libreac.Pacer
import Libreac.Proofs.AnnounceProofs

/-!
# Proofs: the pacer drives its master

Every step of the pacer is a few calls of the master's doors (`MasterPath`), or a rate change that
starts a new master. An invariant of the master therefore holds in every pacer.
-/

namespace Libreac

open Reactive (Event)

variable {env : Env} {p p' : Pacer} {t : MasterTunables} {tx : HeadampTx} {m m' : Master}

/-! ## Calls of the master -/

/-- The master `m'` is reached from `m` by calls of its owner, with the head-amp table `tx`. -/
inductive MasterPath (t : MasterTunables) (tx : HeadampTx) : Master → Master → Prop where
  | refl (m : Master) : MasterPath t tx m m
  | step {m m' : Master} (h : MasterPath t tx m m') (i : MasterInput) :
      MasterPath t tx m (masterStep t m' (tx, i)).1
  | answered {m m' : Master} (h : MasterPath t tx m m') (complete : Bool) :
      MasterPath t tx m (masterIdentityAnswered m' complete)

theorem MasterPath.trans {m₁ m₂ m₃ : Master} (h : MasterPath t tx m₁ m₂)
    (h' : MasterPath t tx m₂ m₃) : MasterPath t tx m₁ m₃ := by
  induction h' with
  | refl => exact h
  | step _ i ih => exact ih.step i
  | answered _ complete ih => exact ih.answered complete

theorem MasterPath.invariant {I : Master → Prop} (h : MasterPath t tx m m')
    (hstep : ∀ m i, I m → I (masterStep t m i).1)
    (hans : ∀ m complete, I m → I (masterIdentityAnswered m complete)) (h₀ : I m) : I m' := by
  induction h with
  | refl => exact h₀
  | step _ i ih => exact hstep _ _ ih
  | answered _ complete ih => exact hans _ complete ih

theorem MasterPath.continues (h : MasterPath t tx m m') : Continues m m' := by
  induction h with
  | refl => exact .refl m
  | step _ i ih => exact ih.trans (.step t _ _)
  | answered _ complete ih => exact ih.trans ⟨rfl, rfl, rfl, rfl, rfl, id, id⟩

/-! ## The parts of a step -/

theorem rxIdentityPass_eq (p : Pacer) (frame : List UInt8) :
    ∃ ident frag complete, rxIdentityPass p frame = { p with
      rxIdentity := ident, rxIdentityFrag := frag
      master := masterIdentityAnswered p.master complete } := by
  unfold rxIdentityPass identityFold
  split_ifs
  · exact ⟨p.rxIdentity, p.rxIdentityFrag, p.master.identityComplete, rfl⟩
  · split
    · exact ⟨_, p.rxIdentityFrag, _, rfl⟩
    · split
      · exact ⟨_, _, _, rfl⟩
      · exact ⟨p.rxIdentity, _, p.master.identityComplete, rfl⟩

theorem rxDeclare_eq (p : Pacer) (frame : List UInt8) :
    ∃ m box din dout, rxDeclare p frame = { p with
      master := m, recognizedBox := box, declaredIn := din, declaredOut := dout } ∧
      (m = p.master ∨ ∃ ports, portsParse frame = some ports ∧
        (ports.inCh ≠ p.declaredIn ∨ ports.outCh ≠ p.declaredOut) ∧
        m = declareBox p.headamp p.master ports ∧
        (m.alloc.width = ports.inCh → din = ports.inCh ∧ dout = ports.outCh) ∧
        (m.alloc.width ≠ ports.inCh → din = p.declaredIn ∧ dout = p.declaredOut)) := by
  unfold rxDeclare
  split
  · exact ⟨p.master, p.recognizedBox, p.declaredIn, p.declaredOut, rfl, .inl rfl⟩
  · rename_i ports hports
    have hparse : portsParse frame = some ports := by
      split_ifs at hports
      exact hports
    dsimp only
    by_cases hnew : ports.inCh ≠ p.declaredIn ∨ ports.outCh ≠ p.declaredOut
    · rw [if_pos hnew]
      by_cases hw : (declareBox p.headamp p.master ports).alloc.width = ports.inCh
      · rw [if_pos hw]
        exact ⟨_, _, _, _, rfl, .inr ⟨ports, hparse, hnew, rfl, fun _ => ⟨rfl, rfl⟩,
          fun h => absurd hw h⟩⟩
      · rw [if_neg hw]
        exact ⟨_, _, p.declaredIn, p.declaredOut, rfl, .inr ⟨ports, hparse, hnew, rfl,
          fun h => absurd h hw, fun _ => ⟨rfl, rfl⟩⟩⟩
    · rw [if_neg hnew]
      exact ⟨p.master, _, p.declaredIn, p.declaredOut, rfl, .inl rfl⟩

theorem declareBox_path (t : MasterTunables) (tx : HeadampTx) (m : Master) (ports : BoxPorts) :
    MasterPath t tx m (declareBox tx m ports) := by
  have hset : MasterPath t tx m (masterSetBox tx m ports.inCh ports.outCh ports.headampBase) :=
    (MasterPath.refl m).step (.setBox ports.inCh ports.outCh ports.headampBase)
  unfold declareBox
  dsimp only
  split_ifs
  · exact hset.step .regrant
  · exact hset

/-- The allocation a frame asks for: what it declares, if that is news and fits. -/
def Pacer.newAlloc (p : Pacer) (frame : List UInt8) : Option GrantAlloc :=
  match (if 50 ≤ frame.length then portsParse frame else none) with
  | none => none
  | some ports =>
    if ports.inCh ≠ p.declaredIn ∨ ports.outCh ≠ p.declaredOut then
      grantAllocate ports.headampBase ports.inCh
    else none

/-- The master after the geometry pass: untouched, or declared anew. It opens a window only when the
width is another one. -/
theorem rxDeclare_master (p : Pacer) (frame : List UInt8) :
    (p.newAlloc frame = none ∧ (rxDeclare p frame).master = p.master) ∨
    ∃ a rows, p.newAlloc frame = some a ∧ IsSweep a rows ∧
      ((a.width = p.master.alloc.width ∨
          p.master.state ≠ .granting ∧ p.master.state ≠ .established) ∧
        (rxDeclare p frame).master = p.master.declared a rows ∨
      (p.master.state = .granting ∨ p.master.state = .established) ∧
        (rxDeclare p frame).master = masterRegrant p.headamp (p.master.declared a rows)) := by
  unfold rxDeclare Pacer.newAlloc
  cases (if 50 ≤ frame.length then portsParse frame else none) with
  | none => exact .inl ⟨rfl, rfl⟩
  | some ports =>
    dsimp only
    by_cases hnew : ports.inCh ≠ p.declaredIn ∨ ports.outCh ≠ p.declaredOut
    · rw [if_pos hnew, if_pos hnew]
      -- What is recorded of the declaration does not matter here.
      have hmaster : ∀ m : Master, (if m.alloc.width = ports.inCh then
          { p with
            recognizedBox := (boxCatalogueMatch frame).or p.recognizedBox, master := m
            declaredIn := ports.inCh, declaredOut := ports.outCh }
          else { p with
            recognizedBox := (boxCatalogueMatch frame).or p.recognizedBox
            master := m }).master = m := by
        intro m
        split_ifs <;> rfl
      rw [hmaster, declareBox]
      cases hfits : grantAllocate ports.headampBase ports.inCh with
      | none =>
        left
        refine ⟨rfl, ?_⟩
        have hset : masterSetBox p.headamp p.master ports.inCh ports.outCh ports.headampBase
            = p.master := by simp only [masterSetBox, rebuildGrantSweep, hfits]
        rw [hset, if_neg]
        rintro ⟨hsame, hne, -⟩
        exact hne hsame.symm
      | some a =>
        right
        obtain ⟨rows, hset, hsweep⟩ := masterSetBox_declared p.headamp p.master ports.outCh hfits
        obtain ⟨-, hw, -⟩ := grantAllocate_eq_some hfits
        have hwidth : a.width = ports.inCh := by exact_mod_cast hw
        refine ⟨a, rows, rfl, hsweep, ?_⟩
        rw [hset]
        split_ifs with hfire
        · exact .inr ⟨hfire.2.2, rfl⟩
        · refine .inl ⟨?_, rfl⟩
          by_contra hnot
          rw [not_or, not_and_or, not_not, not_not] at hnot
          exact hfire ⟨hwidth, hwidth ▸ hnot.1, hnot.2⟩
    · rw [if_neg hnew, if_neg hnew]
      exact .inl ⟨rfl, rfl⟩

theorem syncPublishedBox_eq (p : Pacer) :
    ∃ box base din dout ident frag complete, syncPublishedBox p = { p with
      recognizedBoxMac := p.master.boxMac, recognizedBox := box, recognizedHeadampBase := base
      declaredIn := din, declaredOut := dout, rxIdentity := ident, rxIdentityFrag := frag
      master := masterIdentityAnswered p.master complete } ∧
      (p.master.hasBox = true → din = p.declaredIn ∧ dout = p.declaredOut) ∧
      (p.master.hasBox = false → din = 0 ∧ ident.hasFw = false ∧ complete = false) := by
  unfold syncPublishedBox
  dsimp only
  split_ifs with hb hheard
  · exact ⟨p.recognizedBox, _, p.declaredIn, p.declaredOut, p.rxIdentity, p.rxIdentityFrag,
      p.master.identityComplete, rfl, fun _ => ⟨rfl, rfl⟩, fun h => by simp [hb] at h⟩
  · exact ⟨_, _, _, _, _, _, _, rfl, fun h => by simp [hb] at h, fun _ => ⟨rfl, rfl, rfl⟩⟩
  · refine ⟨_, _, _, _, p.rxIdentity, _, _, rfl, fun h => by simp [hb] at h, fun _ => ⟨rfl, ?_, rfl⟩⟩
    simp only [Bool.or_eq_true, not_or] at hheard
    exact Bool.eq_false_of_not_eq_true hheard.1.1

theorem noteTransition_eq (env : Env) (p : Pacer) (src dst : MasterState) :
    ∃ headamp, noteTransition env p src dst
        = ({ p with prevState := dst, headamp }, sessionReport p.master src dst) ∧
      (dst ≠ .established → headamp = p.headamp) := by
  unfold noteTransition
  dsimp only
  split_ifs with h
  · exact ⟨_, rfl, fun hne => absurd h.1 hne⟩
  · exact ⟨p.headamp, rfl, fun _ => rfl⟩

theorem headampOverlay_eq (p : Pacer) (emit : MasterEmit) (ctrl : Option Template) :
    ∃ headamp ctrl', headampOverlay p emit ctrl = ({ p with headamp }, ctrl') ∧
      (emit ≠ .filler ∨ p.master.state ≠ .established → headamp = p.headamp ∧ ctrl' = ctrl) := by
  unfold headampOverlay
  split_ifs with h
  · split
    · refine ⟨_, _, rfl, fun hn => ?_⟩
      rcases hn with hn | hn
      · exact absurd h.1 hn
      · exact absurd h.2.1 hn
    · refine ⟨_, _, rfl, fun hn => ?_⟩
      rcases hn with hn | hn
      · exact absurd h.1 hn
      · exact absurd h.2.1 hn
  · exact ⟨p.headamp, ctrl, rfl, fun _ => ⟨rfl, rfl⟩⟩

/-! ## Frames -/

/-- The block a frame hands to the master. -/
def eventBlock (ev : RxEvent) (frame : List UInt8) : Option Block :=
  if ev = .join then some (blockOf frame) else none

/-- `r` is what the frame `ev` of `src` leaves, once it is declared: the master has taken it, and the
transition is noted. -/
def Taken (p : Pacer) (ev : RxEvent) (src : Mac) (blk : Option Block)
    (r : Pacer × List SessionReport) : Prop :=
  let m := masterRx p.headamp p.master ev src blk
  ∃ headamp box base din dout ident frag complete,
    r = ({ p with
        master := masterIdentityAnswered m.1 complete, headamp
        prevState := if m.2 then m.1.state else p.prevState, recognizedBoxMac := m.1.boxMac
        recognizedBox := box, recognizedHeadampBase := base, declaredIn := din, declaredOut := dout
        rxIdentity := ident, rxIdentityFrag := frag },
      if m.2 then sessionReport m.1 p.master.state m.1.state else []) ∧
    (m.1.hasBox = true → din = p.declaredIn ∧ dout = p.declaredOut) ∧
    (m.1.hasBox = false → din = 0 ∧ ident.hasFw = false)

theorem taken_note (env : Env) (p : Pacer) (ev : RxEvent) (src : Mac) (blk : Option Block) :
    let m := masterRx p.headamp p.master ev src blk
    let q := syncPublishedBox { p with master := m.1 }
    Taken p ev src blk
      (if m.2 then noteTransition env q p.master.state q.master.state else (q, [])) := by
  dsimp only
  obtain ⟨box, base, din, dout, ident, frag, complete, hsync, hbox, hnone⟩ :=
    syncPublishedBox_eq { p with master := (masterRx p.headamp p.master ev src blk).1 }
  rw [hsync]
  dsimp only
  cases hchanged : (masterRx p.headamp p.master ev src blk).2 with
  | false =>
    refine ⟨p.headamp, box, base, din, dout, ident, frag, complete, ?_, hbox,
      fun h => ⟨(hnone h).1, (hnone h).2.1⟩⟩
    rw [hchanged]
    rfl
  | true =>
    obtain ⟨headamp, hnote, -⟩ := noteTransition_eq env { p with
      master := masterIdentityAnswered (masterRx p.headamp p.master ev src blk).1 complete
      recognizedBoxMac := (masterRx p.headamp p.master ev src blk).1.boxMac, recognizedBox := box
      recognizedHeadampBase := base, declaredIn := din, declaredOut := dout, rxIdentity := ident
      rxIdentityFrag := frag } p.master.state (masterRx p.headamp p.master ev src blk).1.state
    refine ⟨headamp, box, base, din, dout, ident, frag, complete, ?_, hbox,
      fun h => ⟨(hnone h).1, (hnone h).2.1⟩⟩
    rw [hchanged]
    exact hnote

/-- A frame reaches the identity page only, or it is taken: declared, fed to the master and noted. -/
theorem rxIngest_cases (env : Env) (p : Pacer) (bytes : List UInt8) :
    let frame := cleanFrame bytes
    (rxIngest env p bytes = (rxIdentityPass p frame, []) ∧
      ∀ parsed ev, classifyBoxFrame frame p.src = some (parsed, ev) →
        p.master.peerAccepts parsed.src ev = false) ∨
    ∃ parsed ev, classifyBoxFrame frame p.src = some (parsed, ev) ∧
      p.master.peerAccepts parsed.src ev = true ∧
      Taken (rxDeclare (rxIdentityPass p frame) frame) ev parsed.src (eventBlock ev frame)
        (rxIngest env p bytes) := by
  obtain ⟨ident, frag, complete, hpass⟩ := rxIdentityPass_eq p (cleanFrame bytes)
  have hsrc : (rxIdentityPass p (cleanFrame bytes)).src = p.src := by rw [hpass]
  have hpeer : ∀ src ev, (rxIdentityPass p (cleanFrame bytes)).master.peerAccepts src ev
      = p.master.peerAccepts src ev := by
    intro src ev
    rw [hpass]
    rfl
  unfold rxIngest
  dsimp only
  rw [hsrc]
  cases hc : classifyBoxFrame (cleanFrame bytes) p.src with
  | none =>
    left
    exact ⟨rfl, nofun⟩
  | some pe =>
    obtain ⟨parsed, ev⟩ := pe
    dsimp only
    rw [hpeer]
    cases hacc : p.master.peerAccepts parsed.src ev with
    | false =>
      left
      refine ⟨rfl, ?_⟩
      intro parsed' ev' h
      obtain ⟨rfl, rfl⟩ := Prod.mk.inj (Option.some.inj h)
      exact hacc
    | true =>
      right
      exact ⟨parsed, ev, rfl, hacc, taken_note env _ ev parsed.src _⟩

/-- Whose frame this is and what it says, if the pacer takes it. -/
def Pacer.takes (p : Pacer) (bytes : List UInt8) : Option (Mac × RxEvent) :=
  match classifyBoxFrame (cleanFrame bytes) p.src with
  | none => none
  | some (parsed, ev) =>
    if p.master.peerAccepts parsed.src ev then some (parsed.src, ev) else none

/-- The two passes in front of the master: the allocation asked for is the same after the first. -/
theorem rxIngest_takes (env : Env) (p : Pacer) (bytes : List UInt8) :
    ∃ p₀ ident frag complete,
      p₀ = { p with
        rxIdentity := ident, rxIdentityFrag := frag
        master := masterIdentityAnswered p.master complete } ∧
      p₀.newAlloc (cleanFrame bytes) = p.newAlloc (cleanFrame bytes) ∧
      (p.takes bytes = none ∧ rxIngest env p bytes = (p₀, []) ∨
      ∃ src ev, p.takes bytes = some (src, ev) ∧
        Taken (rxDeclare p₀ (cleanFrame bytes)) ev src (eventBlock ev (cleanFrame bytes))
          (rxIngest env p bytes)) := by
  obtain ⟨ident, frag, complete, hpass⟩ := rxIdentityPass_eq p (cleanFrame bytes)
  refine ⟨_, ident, frag, complete, hpass, by rw [hpass]; rfl, ?_⟩
  unfold Pacer.takes
  rcases rxIngest_cases env p bytes with ⟨heq, hrefused⟩ | ⟨parsed, ev, hclass, hacc, htaken⟩
  · refine .inl ⟨?_, heq⟩
    cases hclass : classifyBoxFrame (cleanFrame bytes) p.src with
    | none => rfl
    | some pe => exact if_neg (by rw [hrefused pe.1 pe.2 hclass]; decide)
  · rw [hclass]
    exact .inr ⟨parsed.src, ev, if_pos hacc, htaken⟩

theorem Taken.path {ev : RxEvent} {src : Mac} {blk : Option Block} {r : Pacer × List SessionReport}
    (h : Taken p ev src blk r) (t : MasterTunables) :
    MasterPath t p.headamp p.master r.1.master := by
  obtain ⟨_, _, _, _, _, _, _, complete, rfl, -⟩ := h
  exact ((MasterPath.refl _).step (.rx ev src blk)).answered complete

theorem rxDeclare_path (t : MasterTunables) (p : Pacer) (frame : List UInt8) :
    MasterPath t p.headamp p.master (rxDeclare p frame).master ∧
      (rxDeclare p frame).headamp = p.headamp := by
  obtain ⟨m, _, _, _, hdecl, hm⟩ := rxDeclare_eq p frame
  rw [hdecl]
  refine ⟨?_, rfl⟩
  rcases hm with rfl | ⟨ports, -, -, rfl, -⟩
  · exact .refl _
  · exact declareBox_path t p.headamp p.master ports

theorem rxIngest_path (env : Env) (p : Pacer) (bytes : List UInt8) :
    MasterPath env.tunables p.headamp p.master (rxIngest env p bytes).1.master := by
  obtain ⟨ident, frag, complete, hpass⟩ := rxIdentityPass_eq p (cleanFrame bytes)
  have h₀ : MasterPath env.tunables p.headamp p.master (rxIdentityPass p (cleanFrame bytes)).master := by
    rw [hpass]
    exact (MasterPath.refl _).answered complete
  have htx : (rxIdentityPass p (cleanFrame bytes)).headamp = p.headamp := by rw [hpass]
  rcases rxIngest_cases env p bytes with ⟨heq, -⟩ | ⟨parsed, ev, -, -, htaken⟩
  · rw [heq]
    exact h₀
  · obtain ⟨h₁, htx₁⟩ := rxDeclare_path env.tunables (rxIdentityPass p (cleanFrame bytes))
      (cleanFrame bytes)
    have h₂ := htaken.path env.tunables
    rw [htx] at h₁ htx₁
    rw [htx₁] at h₂
    exact (h₀.trans h₁).trans h₂

/-! ## What stays -/

/-- What only a request or a rate change touches. -/
structure Keeps (p p' : Pacer) : Prop where
  src : p'.src = p.src
  fps : p'.fps = p.fps
  periodNs : p'.periodNs = p.periodNs
  rateHz : p'.rateHz = p.rateHz
  rateReqHz : p'.rateReqHz = p.rateReqHz
  rateReqSeq : p'.rateReqSeq = p.rateReqSeq
  rateReqSeen : p'.rateReqSeen = p.rateReqSeen

theorem Keeps.trans {p₁ p₂ p₃ : Pacer} (h : Keeps p₁ p₂) (h' : Keeps p₂ p₃) : Keeps p₁ p₃ :=
  ⟨h'.src.trans h.src, h'.fps.trans h.fps, h'.periodNs.trans h.periodNs, h'.rateHz.trans h.rateHz,
    h'.rateReqHz.trans h.rateReqHz, h'.rateReqSeq.trans h.rateReqSeq,
    h'.rateReqSeen.trans h.rateReqSeen⟩

theorem Keeps.pending (h : Keeps p p') : p'.rateReqPending = p.rateReqPending := by
  rw [Pacer.rateReqPending, h.rateReqSeq, h.rateReqSeen]
  rfl

theorem rxIdentityPass_keeps (p : Pacer) (frame : List UInt8) : Keeps p (rxIdentityPass p frame) := by
  obtain ⟨_, _, _, h⟩ := rxIdentityPass_eq p frame
  rw [h]
  exact ⟨rfl, rfl, rfl, rfl, rfl, rfl, rfl⟩

theorem rxDeclare_keeps (p : Pacer) (frame : List UInt8) : Keeps p (rxDeclare p frame) := by
  obtain ⟨_, _, _, _, h, -⟩ := rxDeclare_eq p frame
  rw [h]
  exact ⟨rfl, rfl, rfl, rfl, rfl, rfl, rfl⟩

theorem Taken.keeps {ev : RxEvent} {src : Mac} {blk : Option Block} {r : Pacer × List SessionReport}
    (h : Taken p ev src blk r) : Keeps p r.1 := by
  obtain ⟨_, _, _, _, _, _, _, _, rfl, -⟩ := h
  exact ⟨rfl, rfl, rfl, rfl, rfl, rfl, rfl⟩

theorem rxIngest_keeps (env : Env) (p : Pacer) (bytes : List UInt8) :
    Keeps p (rxIngest env p bytes).1 := by
  have h₀ := rxIdentityPass_keeps p (cleanFrame bytes)
  rcases rxIngest_cases env p bytes with ⟨heq, -⟩ | ⟨parsed, ev, -, -, htaken⟩
  · rw [heq]
    exact h₀
  · exact (h₀.trans (rxDeclare_keeps _ (cleanFrame bytes))).trans htaken.keeps

/-! ## Slots -/

/-- What a slot leaves once the rate requests are drained. A grant is never overlaid. -/
theorem masterSlot_cases (env : Env) (p : Pacer) :
    ∃ headamp ctrl,
      let r := masterNext env.tunables p.headamp p.master
      let p₁ := { p with master := r.1, headamp, headampCmds := [] }
      let sent := { counter := p.master.counter, slot := r.2, ctrl }
      masterSlot env p =
        (if r.1.state ≠ p.prevState then
          (syncPublishedBox (noteTransition env p₁ p.prevState r.1.state).1,
            sessionReport r.1 p.prevState r.1.state, sent)
        else (p₁, [], sent)) ∧
      (r.2.emit ≠ .filler ∨ r.1.state ≠ .established → ctrl = masterStamp r.1 r.2) ∧
      (p.headampCmds = [] → r.1.state ≠ .established → headamp = p.headamp) := by
  unfold masterSlot
  dsimp only
  obtain ⟨headamp, ctrl, hover, hkeep⟩ := headampOverlay_eq
    (headampDrain { p with master := (masterNext env.tunables p.headamp p.master).1 })
    (masterNext env.tunables p.headamp p.master).2.emit
    (masterStamp (masterNext env.tunables p.headamp p.master).1
      (masterNext env.tunables p.headamp p.master).2)
  refine ⟨headamp, ctrl, ?_, fun h => (hkeep h).2, fun hc hs => ?_⟩
  · rw [hover]
    by_cases hst : (masterNext env.tunables p.headamp p.master).1.state ≠ p.prevState
    · obtain ⟨ha, hnote, -⟩ := noteTransition_eq env
        { p with
          master := (masterNext env.tunables p.headamp p.master).1, headamp, headampCmds := [] }
        p.prevState (masterNext env.tunables p.headamp p.master).1.state
      rw [if_pos hst]
      refine (if_pos (by exact hst)).trans ?_
      dsimp only [headampDrain]
      rw [hnote]
    · rw [if_neg hst]
      exact if_neg (by exact hst)
  · rw [(hkeep (.inr hs)).1, headampDrain, hc]
    rfl

/-- The same in one equation: the master has taken its slot, and the transition is noted. -/
theorem masterSlot_eq (env : Env) (p : Pacer) :
    ∃ headamp ctrl box base mac din dout ident frag complete,
      let r := masterNext env.tunables p.headamp p.master
      masterSlot env p = ({ p with
          master := masterIdentityAnswered r.1 complete, headamp, headampCmds := []
          prevState := r.1.state, recognizedBox := box, recognizedHeadampBase := base
          recognizedBoxMac := mac, declaredIn := din, declaredOut := dout, rxIdentity := ident
          rxIdentityFrag := frag },
        if r.1.state ≠ p.prevState then sessionReport r.1 p.prevState r.1.state else [],
        { counter := p.master.counter, slot := r.2, ctrl }) ∧
      (r.1.hasBox = true → din = p.declaredIn ∧ dout = p.declaredOut) ∧
      (r.1.state ≠ p.prevState → r.1.hasBox = false →
        din = 0 ∧ ident.hasFw = false ∧ complete = false) ∧
      (r.2.emit ≠ .filler → ctrl = masterStamp r.1 r.2) ∧
      (p.headampCmds = [] → r.1.state ≠ .established → headamp = p.headamp) := by
  obtain ⟨headamp, ctrl, heq, hctrl, htx⟩ := masterSlot_cases env p
  generalize masterNext env.tunables p.headamp p.master = r at *
  by_cases hst : r.1.state ≠ p.prevState
  · obtain ⟨ha, hnote, harm⟩ := noteTransition_eq env { p with
      master := r.1, headamp, headampCmds := [] } p.prevState r.1.state
    obtain ⟨box, base, din, dout, ident, frag, complete, hsync, hdecl, hnone⟩ := syncPublishedBox_eq
      { p with master := r.1, headamp := ha, headampCmds := [], prevState := r.1.state }
    rw [if_pos hst, hnote] at heq
    dsimp only at heq hsync
    rw [hsync] at heq
    refine ⟨ha, ctrl, box, base, r.1.boxMac, din, dout, ident, frag, complete, ?_, hdecl,
      fun _ h => hnone h, fun h => hctrl (.inl h), fun hc hne => (harm hne).trans (htx hc hne)⟩
    rw [if_pos hst]
    exact heq
  · refine ⟨headamp, ctrl, p.recognizedBox, p.recognizedHeadampBase, p.recognizedBoxMac,
      p.declaredIn, p.declaredOut, p.rxIdentity, p.rxIdentityFrag, r.1.identityComplete, ?_,
      fun _ => ⟨rfl, rfl⟩, fun h => absurd h hst, fun h => hctrl (.inl h), htx⟩
    rw [if_neg hst] at heq ⊢
    rw [heq, not_not.mp hst]
    rfl

theorem masterSlot_path (env : Env) (p : Pacer) :
    MasterPath env.tunables p.headamp p.master (masterSlot env p).1.master := by
  obtain ⟨_, _, _, _, _, _, _, _, _, complete, heq, -⟩ := masterSlot_eq env p
  rw [heq]
  exact ((MasterPath.refl _).step .next).answered complete

theorem masterSlot_keeps (env : Env) (p : Pacer) : Keeps p (masterSlot env p).1 := by
  obtain ⟨_, _, _, _, _, _, _, _, _, _, heq, -⟩ := masterSlot_eq env p
  rw [heq]
  exact ⟨rfl, rfl, rfl, rfl, rfl, rfl, rfl⟩

theorem pacerSlot_eq (env : Env) (p : Pacer) :
    pacerSlot env p = ((masterSlot env (rateDrain env p).1).1,
      (rateDrain env p).2 ++ (masterSlot env (rateDrain env p).1).2.1,
      (masterSlot env (rateDrain env p).1).2.2) := rfl

/-- A slot is the master's, after the rate change that is waiting. -/
theorem pacerStep_slot_eq (env : Env) (p : Pacer) :
    (pacerStep env p .slot).1 = (masterSlot env (rateDrain env p).1).1 ∧
      (pacerStep env p .slot).2.sent = some (masterSlot env (rateDrain env p).1).2.2 := by
  simp only [pacerStep, pacerSlot_eq, and_self]

/-- So is the slot of a run. -/
theorem slot_event (env : Env) (p : Pacer) :
    ((pacerMachine env).event p .slot).post = (masterSlot env (rateDrain env p).1).1 ∧
      ((pacerMachine env).event p .slot).out.sent = some (masterSlot env (rateDrain env p).1).2.2 :=
  pacerStep_slot_eq env p

/-! ## Steps without a request -/

/-- A request of either kind. -/
def PacerInput.asksRate : PacerInput → Bool
  | .requestRate _ | .requestReestablish => true
  | _ => false

theorem headampSet_path (t : MasterTunables) (p : Pacer) (ch param : ℕ) (value : UInt8) :
    MasterPath t p.headamp p.master (headampSet p ch param value).master ∧
      Keeps p (headampSet p ch param value) := by
  unfold headampSet
  split_ifs
  · exact ⟨.refl _, rfl, rfl, rfl, rfl, rfl, rfl, rfl⟩
  · exact ⟨.refl _, rfl, rfl, rfl, rfl, rfl, rfl, rfl⟩

/-- With nothing asked and nothing pending the rate stands. -/
theorem pacerStep_keeps (env : Env) (p : Pacer) {i : PacerInput} (hi : i.asksRate = false)
    (hpend : p.rateReqPending = false) : Keeps p (pacerStep env p i).1 := by
  cases i with
  | frame bytes => exact rxIngest_keeps env p bytes
  | slot =>
    have hdrain : rateDrain env p = (p, []) := by simp [rateDrain, hpend]
    rw [(pacerStep_slot_eq env p).1, hdrain]
    exact masterSlot_keeps env p
  | requestRate | requestReestablish => cases hi
  | headampSet ch param value => exact (headampSet_path env.tunables p ch param value).2

/-! ## The rates -/

/-- An hour of slots is an `int`, at the rate in force and at the one asked for. -/
structure RatesFit (p : Pacer) : Prop where
  standing : p.rateHz ≤ 596522 * samplesPerPkt
  asked : p.rateReqHz ≤ 596522 * samplesPerPkt

/-- The rate a request brings. -/
theorem RatesFit.fps (h : RatesFit p) : p.rateReqHz.tdiv samplesPerPkt ≤ 596522 := by
  have hle := Int.tdiv_le_tdiv (c := samplesPerPkt) (by decide) h.asked
  rwa [Int.mul_tdiv_cancel _ (by decide)] at hle

theorem ratesFit_open (env : Env) (cfg : PacerCfg) : RatesFit (pacerOpen env cfg) := by
  refine ⟨?_, show (0 : ℤ) ≤ 596522 * samplesPerPkt by decide⟩
  exact Int.mul_le_mul_of_nonneg_right cfg.fps_le (by decide)

theorem Keeps.ratesFit (h : Keeps p p') (hp : RatesFit p) : RatesFit p' := by
  refine ⟨?_, ?_⟩
  · rw [h.rateHz]
    exact hp.standing
  · rw [h.rateReqHz]
    exact hp.asked

theorem RatesFit.rateDrain (h : RatesFit p) (env : Env) : RatesFit (rateDrain env p).1 := by
  unfold Libreac.rateDrain
  split_ifs
  · exact ⟨h.asked, h.asked⟩
  · exact h

theorem RatesFit.step (h : RatesFit p) (env : Env) (i : PacerInput) :
    RatesFit (pacerStep env p i).1 := by
  cases i with
  | frame bytes => exact (rxIngest_keeps env p bytes).ratesFit h
  | slot =>
    rw [(pacerStep_slot_eq env p).1]
    exact (masterSlot_keeps env _).ratesFit (h.rateDrain env)
  | requestRate r =>
    have hlist : ∀ r : Rate, r.hz ≤ 596522 * samplesPerPkt := by
      intro r
      cases r <;> decide
    exact ⟨h.standing, hlist r⟩
  | requestReestablish => exact ⟨h.standing, h.standing⟩
  | headampSet ch param value => exact (headampSet_path env.tunables p ch param value).2.ratesFit h

/-! ## A desk -/

/-- A process with the built-in tunables and an empty scene. -/
def deskEnv : Env where
  tunables := {}
  noHeadamp := false
  placeholder := Vector.replicate 8904 0

def deskMac : Mac := #v[0x00, 0x40, 0xab, 0xc9, 0xcc, 0x03]

/-- A desk opened at 48 kHz. -/
def deskCfg : PacerCfg where
  srcMac := deskMac
  fps := 4000
  console := consoleCfgIdle
  fps_pos := by decide
  fps_le := by decide

end Libreac
