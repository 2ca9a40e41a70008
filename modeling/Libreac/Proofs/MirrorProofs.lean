import Libreac.RxLoop
import Libreac.Proofs.RxProofs

/-!
# Proofs: what a mirrored frame leaves behind

Two runs of the receiver, the second with copies of accepted frames thrown in. The runs differ in the
kept frame and in the run of refused frames (`RxAlike`), and in neither to any effect: a copy is dropped
by the duplicate guard, or, behind the frame at which an epoch change was noticed, refused by the
counter gate with the counter it has just followed. What breaks this is a guard that has forgotten the
frame before its copy comes (`GuardKept`).
-/

namespace Libreac

open Reactive (Event)
open Reactive.Machine (Offered)

variable {rx b t : Rx} {frame bytes : List UInt8}

/-! ## The moves of the loop body -/

/-- What the gate leaves of the lock when it takes the frame. -/
def Rx.lock (rx : Rx) (frame : List UInt8) : Rx :=
  if rx.accept = .upstream ∧ rx.upSrcLocked = false then
    { rx with upSrc := macAt frame 6, upSrcLocked := true }
  else rx

theorem gateAccepts_eq (rx : Rx) (frame : List UInt8) :
    gateAccepts rx frame =
      (if (gateAccepts rx frame).2 then rx.lock frame else rx, (gateAccepts rx frame).2) := by
  unfold gateAccepts Rx.lock
  cases haccept : rx.accept with
  | downstream =>
    dsimp only
    split_ifs <;> simp_all
  | upstream =>
    dsimp only
    cases hlock : rx.upSrcLocked with
    | false => split_ifs <;> simp_all
    | true => split_ifs <;> simp_all

theorem gateAccepts_taken (h : (gateAccepts rx frame).2 = true) :
    gateAccepts rx frame = (rx.lock frame, true) := by
  rw [gateAccepts_eq, h]
  rfl

/-- A frame the gate takes has the length of a frame. -/
theorem gateAccepts_len (h : (gateAccepts rx frame).2 = true) :
    frame.length ≤ 1560 ∧ 124 ≤ frame.length ∧ (frame.length - 52) % 36 = 0 := by
  unfold gateAccepts at h
  cases haccept : rx.accept with
  | downstream =>
    rw [haccept] at h
    dsimp only at h
    split_ifs at h with hbad
    have hlen : frame.length = 1492 := by
      by_contra hne
      exact hbad (.inl hne)
    omega
  | upstream =>
    rw [haccept] at h
    dsimp only at h
    have hlen : upstreamLenOk frame.length = true := by
      by_contra hne
      rw [Bool.not_eq_true] at hne
      rw [hne] at h
      cases h
    unfold upstreamLenOk at hlen
    have hlen := of_decide_eq_true hlen
    omega

theorem rxLoopBody_ignored (h : frameIsReac bytes = false) : rxLoopBody rx bytes = (rx, .ignored) := by
  unfold rxLoopBody
  rw [h]
  rfl

theorem rxLoopBody_refused (hreac : frameIsReac bytes = true)
    (hgate : (gateAccepts rx (cleanFrame bytes)).2 = false) :
    rxLoopBody rx bytes = ({ rx with framesOther := rx.framesOther + 1 }, .other) := by
  have hrefused : gateAccepts rx (cleanFrame bytes) = (rx, false) := by
    rw [gateAccepts_eq, hgate]
    rfl
  unfold rxLoopBody
  simp only [hreac, Bool.not_true, Bool.false_eq_true, if_false, hrefused]

theorem rxLoopBody_dup (hreac : frameIsReac bytes = true)
    (hgate : (gateAccepts rx (cleanFrame bytes)).2 = true)
    (hprev : rx.prevFrame = some (cleanFrame bytes)) :
    rxLoopBody rx bytes = ({ rx.lock (cleanFrame bytes) with framesDup := rx.framesDup + 1 }, .dup) := by
  have htaken := gateAccepts_taken hgate
  have hlock : (rx.lock (cleanFrame bytes)).prevFrame = some (cleanFrame bytes) ∧
      (rx.lock (cleanFrame bytes)).framesDup = rx.framesDup := by
    unfold Rx.lock
    split_ifs <;> exact ⟨hprev, rfl⟩
  unfold rxLoopBody
  simp only [hreac, Bool.not_true, Bool.false_eq_true, if_false, if_true, htaken, hlock]

theorem rxLoopBody_new (hreac : frameIsReac bytes = true)
    (hgate : (gateAccepts rx (cleanFrame bytes)).2 = true)
    (hprev : rx.prevFrame ≠ some (cleanFrame bytes)) :
    rxLoopBody rx bytes = rxCounterGate
      (rxEpochCheck { rx.lock (cleanFrame bytes) with prevFrame := some (cleanFrame bytes) })
      (cleanFrame bytes) := by
  have htaken := gateAccepts_taken hgate
  have hlock : (rx.lock (cleanFrame bytes)).prevFrame ≠ some (cleanFrame bytes) := by
    unfold Rx.lock
    split_ifs <;> exact hprev
  unfold rxLoopBody
  simp only [hreac, Bool.not_true, Bool.false_eq_true, if_false, if_true, htaken, hlock,
    (gateAccepts_len hgate).1]

/-! ## The counter gate -/

@[simp] theorem rxFollow_prevFrame (rx : Rx) (counter : UInt16) (frame : List UInt8) :
    (rxFollow rx counter frame).1.prevFrame = rx.prevFrame := by
  unfold rxFollow
  dsimp only
  split_ifs <;> rfl

@[simp] theorem rxFollow_seenEpoch (rx : Rx) (counter : UInt16) (frame : List UInt8) :
    (rxFollow rx counter frame).1.seenEpoch = rx.seenEpoch := by
  unfold rxFollow
  dsimp only
  split_ifs <;> rfl

theorem rxFollow_followed (rx : Rx) (counter : UInt16) (frame : List UInt8) :
    (rxFollow rx counter frame).2.followed = true := by
  unfold rxFollow
  dsimp only
  split_ifs <;> rfl

/-- What a followed frame leaves of the counter. -/
theorem rxFollow_counter (rx : Rx) (counter : UInt16) (frame : List UInt8) :
    (rxFollow rx counter frame).1.haveCounter = true ∧
      (rxFollow rx counter frame).1.lastCounter = counter ∧
      (rxFollow rx counter frame).1.staleRun = 0 := by
  unfold rxFollow
  dsimp only
  split_ifs <;> exact ⟨rfl, rfl, rfl⟩

theorem rxCounterGate_kept (rx : Rx) (frame : List UInt8) :
    (rxCounterGate rx frame).1.prevFrame = rx.prevFrame ∧
      (rxCounterGate rx frame).1.seenEpoch = rx.seenEpoch := by
  unfold rxCounterGate
  dsimp only
  split_ifs <;> simp

/-- Without a counter to continue the frame is followed. -/
theorem rxCounterGate_fresh (h : rx.haveCounter = false) (frame : List UInt8) :
    rxCounterGate rx frame = rxFollow rx (frameCounter frame) frame := by
  unfold rxCounterGate
  simp only [h, Bool.false_eq_true, false_and, if_false]

/-! ## Two receivers that go on alike -/

/-- The run of refused frames, if there is one, cannot be continued: the next counter is ahead. -/
def Rx.Inert (rx : Rx) : Prop := rx.staleRun = 0 ∨ rx.staleLast = rx.lastCounter

/-- Two receivers that go on alike: they agree but for the kept frame, the counts of frames not followed
and runs of refused frames that cannot be continued. -/
structure RxAlike (b t : Rx) : Prop where
  accept : t.accept = b.accept
  upSrc : t.upSrc = b.upSrc
  upSrcLocked : t.upSrcLocked = b.upSrcLocked
  peerSession : t.peerSession = b.peerSession
  peerEpoch : t.peerEpoch = b.peerEpoch
  seenEpoch : t.seenEpoch = b.seenEpoch
  haveCounter : t.haveCounter = b.haveCounter
  lastCounter : t.lastCounter = b.lastCounter
  counterGaps : t.counterGaps = b.counterGaps
  stale : t.staleRun = b.staleRun ∧ t.staleLast = b.staleLast ∨ b.Inert ∧ t.Inert

theorem Rx.Inert.nextRun (h : rx.Inert) {counter : UInt16}
    (hbehind : counterAhead rx.lastCounter counter = false) : rx.nextRun counter = 1 := by
  unfold Rx.nextRun
  rw [if_neg]
  rintro ⟨hrun, rfl⟩
  rcases h with h | h
  · exact hrun h
  · rw [h, counterAhead_succ] at hbehind
    cases hbehind

theorem gateAccepts_congr (h : RxAlike b t) (frame : List UInt8) :
    (gateAccepts t frame).2 = (gateAccepts b frame).2 := by
  unfold gateAccepts
  rw [h.accept, h.upSrc, h.upSrcLocked]
  cases b.accept with
  | downstream =>
    dsimp only
    split_ifs <;> rfl
  | upstream =>
    dsimp only
    split_ifs <;> rfl

theorem RxAlike.lock (h : RxAlike b t) (frame : List UInt8) : RxAlike (b.lock frame) (t.lock frame) := by
  unfold Rx.lock
  rw [h.accept, h.upSrcLocked]
  split_ifs
  · exact ⟨rfl, rfl, rfl, h.peerSession, h.peerEpoch, h.seenEpoch, h.haveCounter, h.lastCounter,
      h.counterGaps, h.stale⟩
  · exact h

theorem RxAlike.keep (h : RxAlike b t) (p q : Option (List UInt8)) :
    RxAlike { b with prevFrame := p } { t with prevFrame := q } :=
  ⟨h.accept, h.upSrc, h.upSrcLocked, h.peerSession, h.peerEpoch, h.seenEpoch, h.haveCounter,
    h.lastCounter, h.counterGaps, h.stale⟩

/-- The counts of frames that were not followed are nobody's business. -/
theorem RxAlike.count (h : RxAlike b t) (o d o' d' : ℕ) :
    RxAlike { b with framesOther := o, framesDup := d } { t with framesOther := o', framesDup := d' } :=
  ⟨h.accept, h.upSrc, h.upSrcLocked, h.peerSession, h.peerEpoch, h.seenEpoch, h.haveCounter,
    h.lastCounter, h.counterGaps, h.stale⟩

theorem RxAlike.epochCheck (h : RxAlike b t) : RxAlike (rxEpochCheck b) (rxEpochCheck t) := by
  unfold rxEpochCheck
  rw [h.peerEpoch, h.seenEpoch]
  split_ifs
  · exact ⟨h.accept, h.upSrc, h.upSrcLocked, h.peerSession, rfl, rfl, rfl, h.lastCounter, h.counterGaps,
      .inr ⟨.inl rfl, .inl rfl⟩⟩
  · exact h

theorem RxAlike.follow (h : RxAlike b t) (counter : UInt16) (frame : List UInt8) :
    (rxFollow t counter frame).2 = (rxFollow b counter frame).2 ∧
      RxAlike (rxFollow b counter frame).1 (rxFollow t counter frame).1 := by
  unfold rxFollow
  simp only [h.haveCounter, h.lastCounter, h.counterGaps, h.accept]
  split_ifs <;> exact ⟨rfl, ⟨rfl, h.upSrc, h.upSrcLocked, h.peerSession, h.peerEpoch, h.seenEpoch, rfl,
    rfl, rfl, .inr ⟨.inl rfl, .inl rfl⟩⟩⟩

theorem RxAlike.counterGate (h : RxAlike b t) (frame : List UInt8) :
    (rxCounterGate t frame).2 = (rxCounterGate b frame).2 ∧
      RxAlike (rxCounterGate b frame).1 (rxCounterGate t frame).1 := by
  by_cases hbehind : b.haveCounter = true ∧ counterAhead b.lastCounter (frameCounter frame) = false
  · have hbehind' : t.haveCounter = true ∧ counterAhead t.lastCounter (frameCounter frame) = false := by
      rw [h.haveCounter, h.lastCounter]
      exact hbehind
    have hrun : t.nextRun (frameCounter frame) = b.nextRun (frameCounter frame) := by
      rcases h.stale with ⟨hrun, hlast⟩ | ⟨hb, ht⟩
      · simp only [Rx.nextRun, hrun, hlast]
      · rw [hb.nextRun hbehind.2, ht.nextRun hbehind'.2]
    unfold rxCounterGate
    dsimp only
    rw [if_pos hbehind, if_pos hbehind', hrun]
    split_ifs
    · exact ⟨rfl, h.accept, h.upSrc, h.upSrcLocked, h.peerSession, h.peerEpoch, h.seenEpoch,
        h.haveCounter, h.lastCounter, h.counterGaps, .inl ⟨rfl, rfl⟩⟩
    · have hresync : RxAlike
          { b with staleRun := b.nextRun (frameCounter frame), staleLast := frameCounter frame
                   haveCounter := false }
          { t with staleRun := b.nextRun (frameCounter frame), staleLast := frameCounter frame
                   haveCounter := false } :=
        ⟨h.accept, h.upSrc, h.upSrcLocked, h.peerSession, h.peerEpoch, h.seenEpoch, rfl, h.lastCounter,
          h.counterGaps, .inl ⟨rfl, rfl⟩⟩
      exact hresync.follow _ frame
  · have hahead' : ¬ (t.haveCounter = true ∧
        counterAhead t.lastCounter (frameCounter frame) = false) := by
      rw [h.haveCounter, h.lastCounter]
      exact hbehind
    unfold rxCounterGate
    dsimp only
    rw [if_neg hbehind, if_neg hahead']
    exact h.follow _ frame

theorem RxAlike.wouldResync (h : RxAlike b t) (counter : UInt16) :
    t.wouldResync counter = b.wouldResync counter := by
  unfold Rx.wouldResync
  rw [h.epochCheck.haveCounter, h.epochCheck.lastCounter]

/-! ## What a run remembers -/

/-- The frame of the step, clean, if the stream gate accepted it. -/
def acceptedFrame (e : RxLoopEvent) : Option (List UInt8) :=
  match e.input with
  | .frame bytes _ =>
    if frameIsReac bytes = true ∧ (gateAccepts e.pre.rx (cleanFrame bytes)).2 = true then
      some (cleanFrame bytes)
    else none
  | _ => none

/-- The last frame the stream gate accepted. -/
def lastAccepted (log : List RxLoopEvent) : Option (List UInt8) := log.reverse.findSome? acceptedFrame

theorem lastAccepted_concat (log : List RxLoopEvent) (e : RxLoopEvent) :
    lastAccepted (log ++ [e]) = (acceptedFrame e).or (lastAccepted log) := by
  unfold lastAccepted
  rw [List.reverse_append, List.reverse_singleton, List.singleton_append, List.findSome?_cons]
  cases acceptedFrame e <;> rfl

/-- The epoch check has just emptied the guard, at the frame that the counter follows now. -/
structure Noticed (rx : Rx) (frame : List UInt8) : Prop where
  emptied : rx.prevFrame = none
  counting : rx.haveCounter = true
  counter : rx.lastCounter = frameCounter frame
  run : rx.staleRun = 0

/-- What the loop remembers of the last frame accepted: the guard keeps it, or the epoch check has just
emptied the guard. -/
structure Recalls (log : List RxLoopEvent) (s : RxLoop) : Prop where
  kept : ∀ frame, lastAccepted log = some frame →
    s.rx.prevFrame = some frame ∨ Noticed s.rx frame
  locked : ∀ frame, lastAccepted log = some frame → s.rx.accept = .upstream → s.rx.upSrcLocked = true

/-- A frame that is not a copy of the kept one is kept, or empties the guard. -/
theorem new_kept (rx : Rx) (frame : List UInt8) :
    let rx' := (rxCounterGate (rxEpochCheck { rx with prevFrame := some frame }) frame).1
    rx'.prevFrame = some frame ∨ Noticed rx' frame := by
  intro rx'
  have hkept := (rxCounterGate_kept (rxEpochCheck { rx with prevFrame := some frame }) frame).1
  by_cases hpending : rx.peerEpoch = rx.seenEpoch
  · left
    have hcheck : rxEpochCheck { rx with prevFrame := some frame } = { rx with prevFrame := some frame } :=
      rxEpochCheck_of_eq hpending
    rw [hcheck] at hkept
    simp only [rx', hcheck, hkept]
  · right
    have hfresh : (rxEpochCheck { rx with prevFrame := some frame }).haveCounter = false ∧
        (rxEpochCheck { rx with prevFrame := some frame }).prevFrame = none := by
      unfold rxEpochCheck
      rw [if_pos hpending]
      exact ⟨rfl, rfl⟩
    obtain ⟨hcounting, hcounter, hrun⟩ := rxFollow_counter
      (rxEpochCheck { rx with prevFrame := some frame }) (frameCounter frame) frame
    rw [rxCounterGate_fresh hfresh.1] at hkept
    simp only [rx', rxCounterGate_fresh hfresh.1]
    exact ⟨hkept.trans hfresh.2, hcounting, hcounter, hrun⟩

theorem lock_locked {rx : Rx} (h : rx.accept = .upstream) (frame : List UInt8) :
    (rx.lock frame).upSrcLocked = true := by
  unfold Rx.lock
  by_cases hlock : rx.upSrcLocked = false
  · rw [if_pos ⟨h, hlock⟩]
  · rw [if_neg fun hc => hlock hc.2]
    simpa using hlock

theorem lock_of_locked {rx : Rx} (h : rx.accept = .upstream → rx.upSrcLocked = true)
    (frame : List UInt8) : rx.lock frame = rx := by
  unfold Rx.lock
  rw [if_neg]
  rintro ⟨haccept, hlock⟩
  rw [h haccept] at hlock
  cases hlock

theorem lock_accept (rx : Rx) (frame : List UInt8) : (rx.lock frame).accept = rx.accept := by
  unfold Rx.lock
  split_ifs <;> rfl

theorem lock_prevFrame (rx : Rx) (frame : List UInt8) : (rx.lock frame).prevFrame = rx.prevFrame := by
  unfold Rx.lock
  split_ifs <;> rfl

theorem counterGate_gate (rx : Rx) (frame : List UInt8) :
    (rxCounterGate rx frame).1.accept = rx.accept ∧
      (rxCounterGate rx frame).1.upSrcLocked = rx.upSrcLocked := by
  unfold rxCounterGate rxFollow
  dsimp only
  split_ifs <;> exact ⟨rfl, rfl⟩

theorem epochCheck_gate (rx : Rx) :
    (rxEpochCheck rx).accept = rx.accept ∧ (rxEpochCheck rx).upSrcLocked = rx.upSrcLocked := by
  unfold rxEpochCheck
  split_ifs <;> exact ⟨rfl, rfl⟩

section Steps

variable {log : List RxLoopEvent} {s s' : RxLoop} {now : UInt64}

theorem acceptedFrame_some {e : RxLoopEvent} {frame : List UInt8} (h : acceptedFrame e = some frame) :
    ∃ bytes now, e.input = .frame bytes now ∧ frameIsReac bytes = true ∧
      (gateAccepts e.pre.rx (cleanFrame bytes)).2 = true ∧ frame = cleanFrame bytes := by
  unfold acceptedFrame at h
  cases hin : e.input with
  | sessionEnd => simp only [hin, reduceCtorEq] at h
  | peerReset mac session => simp only [hin, reduceCtorEq] at h
  | frame bytes now =>
    simp only [hin] at h
    split_ifs at h with hacc
    exact ⟨bytes, now, rfl, hacc.1, hacc.2, (Option.some.inj h).symm⟩

theorem acceptedFrame_event (s : RxLoop) (bytes : List UInt8) (now : UInt64) :
    acceptedFrame (rxLoopMachine.event s (.frame bytes now)) =
      if frameIsReac bytes = true ∧ (gateAccepts s.rx (cleanFrame bytes)).2 = true then
        some (cleanFrame bytes)
      else none := rfl

theorem acceptedFrame_of (hreac : frameIsReac bytes = true)
    (hgate : (gateAccepts s.rx (cleanFrame bytes)).2 = true) (now : UInt64) :
    acceptedFrame (rxLoopMachine.event s (.frame bytes now)) = some (cleanFrame bytes) := by
  rw [acceptedFrame_event, if_pos ⟨hreac, hgate⟩]

theorem acceptedFrame_none (h : frameIsReac bytes = false ∨
    (gateAccepts s.rx (cleanFrame bytes)).2 = false) (now : UInt64) :
    acceptedFrame (rxLoopMachine.event s (.frame bytes now)) = none := by
  have hno : ¬ (frameIsReac bytes = true ∧ (gateAccepts s.rx (cleanFrame bytes)).2 = true) := by
    rintro ⟨hreac, hgate⟩
    rcases h with h | h
    · rw [hreac] at h
      cases h
    · rw [hgate] at h
      cases h
  exact if_neg hno

/-- A step that accepts no frame. -/
theorem Recalls.quiet (h : Recalls log s) {e : RxLoopEvent} (hnone : acceptedFrame e = none)
    (hprev : s'.rx.prevFrame = s.rx.prevFrame) (hcounting : s'.rx.haveCounter = s.rx.haveCounter)
    (hcounter : s'.rx.lastCounter = s.rx.lastCounter) (hrun : s'.rx.staleRun = s.rx.staleRun)
    (haccept : s'.rx.accept = s.rx.accept)
    (hlock : s.rx.upSrcLocked = true → s'.rx.upSrcLocked = true) : Recalls (log ++ [e]) s' := by
  have hlast : lastAccepted (log ++ [e]) = lastAccepted log := by
    rw [lastAccepted_concat, hnone, Option.none_or]
  constructor
  · intro frame hframe
    rw [hlast] at hframe
    rw [hprev]
    rcases h.kept frame hframe with hkept | ⟨h₁, h₂, h₃, h₄⟩
    · exact .inl hkept
    · exact .inr ⟨hprev.trans h₁, hcounting.trans h₂, hcounter.trans h₃, hrun.trans h₄⟩
  · intro frame hframe hup
    rw [hlast] at hframe
    rw [haccept] at hup
    exact hlock (h.locked frame hframe hup)

theorem Recalls.accepted {e : RxLoopEvent} (hsome : acceptedFrame e = some frame)
    (hkept : s'.rx.prevFrame = some frame ∨ Noticed s'.rx frame)
    (hlock : s'.rx.accept = .upstream → s'.rx.upSrcLocked = true) : Recalls (log ++ [e]) s' := by
  have hlast : lastAccepted (log ++ [e]) = some frame := by
    rw [lastAccepted_concat, hsome, Option.some_or]
  constructor
  · intro frame' hframe
    obtain rfl := Option.some.inj (hlast.symm.trans hframe)
    exact hkept
  · intro frame' _
    exact hlock

theorem Recalls.step (h : Recalls log s) (i : RxLoopInput) :
    Recalls (log ++ [rxLoopMachine.event s i]) (rxLoopStep s i).1 := by
  cases i with
  | sessionEnd => exact h.quiet rfl rfl rfl rfl rfl rfl id
  | peerReset mac session =>
    simp only [rxLoopStep, rxPeerReset]
    split_ifs
    · exact h.quiet rfl rfl rfl rfl rfl rfl id
    · exact h.quiet rfl rfl rfl rfl rfl rfl fun _ => rfl
  | frame bytes now =>
    have hrx : (rxLoopStep s (.frame bytes now)).1.rx = (rxLoopBody s.rx bytes).1 := rfl
    cases hreac : frameIsReac bytes with
    | false =>
      have hbody : rxLoopBody s.rx bytes = _ := rxLoopBody_ignored hreac
      refine h.quiet (acceptedFrame_none (.inl hreac) now) ?_ ?_ ?_ ?_ ?_ ?_ <;> rw [hrx, hbody]
      exact id
    | true =>
      cases hgate : (gateAccepts s.rx (cleanFrame bytes)).2 with
      | false =>
        have hbody := rxLoopBody_refused hreac hgate
        refine h.quiet (acceptedFrame_none (.inr hgate) now) ?_ ?_ ?_ ?_ ?_ ?_ <;> rw [hrx, hbody]
        exact id
      | true =>
        have hacc := acceptedFrame_of hreac hgate now
        by_cases hprev : s.rx.prevFrame = some (cleanFrame bytes)
        · refine .accepted hacc (.inl ?_) ?_ <;> rw [hrx, rxLoopBody_dup hreac hgate hprev]
          · dsimp only
            unfold Rx.lock
            split_ifs <;> exact hprev
          · intro haccept
            exact lock_locked ((lock_accept _ _).symm.trans haccept) _
        · refine .accepted hacc ?_ ?_ <;> rw [hrx, rxLoopBody_new hreac hgate hprev]
          · exact new_kept (s.rx.lock (cleanFrame bytes)) (cleanFrame bytes)
          · rw [(counterGate_gate _ _).1, (counterGate_gate _ _).2, (epochCheck_gate _).1,
              (epochCheck_gate _).2]
            intro haccept
            exact lock_locked ((lock_accept _ _).symm.trans haccept) _

/-- The frame at which the guard was emptied is refused when it comes again in the same epoch, and is
kept then. -/
theorem repeat_refused {rx : Rx} (hreac : frameIsReac bytes = true)
    (hgate : (gateAccepts rx (cleanFrame bytes)).2 = true) (hnoticed : Noticed rx (cleanFrame bytes))
    (hlock : rx.accept = .upstream → rx.upSrcLocked = true) (hepoch : rx.peerEpoch = rx.seenEpoch) :
    rxLoopBody rx bytes =
      ({ rx with
        prevFrame := some (cleanFrame bytes), staleRun := 1, staleLast := rx.lastCounter
        framesOther := rx.framesOther + 1 }, .other) := by
  have hprev : rx.prevFrame ≠ some (cleanFrame bytes) := by
    rw [hnoticed.emptied]
    simp
  have hcheck : rxEpochCheck { rx with prevFrame := some (cleanFrame bytes) } =
      { rx with prevFrame := some (cleanFrame bytes) } := rxEpochCheck_of_eq hepoch
  have hbehind : rx.haveCounter = true ∧ counterAhead rx.lastCounter rx.lastCounter = false :=
    ⟨hnoticed.counting, counterAhead_self _⟩
  have hrun : rx.nextRun rx.lastCounter = 1 := Rx.Inert.nextRun (.inl hnoticed.run) hbehind.2
  rw [rxLoopBody_new hreac hgate hprev, lock_of_locked hlock, hcheck]
  unfold rxCounterGate
  rw [← hnoticed.counter]
  dsimp only
  rw [if_pos hbehind]
  have hrun' : Rx.nextRun { rx with prevFrame := some (cleanFrame bytes) } rx.lastCounter = 1 := hrun
  rw [hrun', if_pos (by omega)]

/-! ## The two runs -/

/-- The first run with its history, and the second, which has the copies. -/
structure MirrorPair (lb lt : List RxLoopEvent) (b t : RxLoop) : Prop where
  alike : RxAlike b.rx t.rx
  window : t.window = b.window
  last : lastAccepted lt = lastAccepted lb
  /-- A copy may have filled the guard that the epoch check emptied. -/
  guard : t.rx.prevFrame = b.rx.prevFrame ∨
    b.rx.prevFrame = none ∧ t.rx.prevFrame ≠ none ∧ t.rx.prevFrame = lastAccepted lb
  recalls : Recalls lb b
  recalls' : Recalls lt t

/-- The frame repeats the one at which an epoch change was noticed, with another change pending. -/
def Reopens (log : List RxLoopEvent) (e : RxLoopEvent) : Prop :=
  ∃ frame, acceptedFrame e = some frame ∧ lastAccepted log = some frame ∧
    e.pre.rx.prevFrame = none ∧ e.pre.rx.peerEpoch ≠ e.pre.rx.seenEpoch

variable {lb lt : List RxLoopEvent} {b t : RxLoop}

theorem followedOf_event (s : RxLoop) (bytes : List UInt8) (now : UInt64) :
    followedOf (rxLoopMachine.event s (.frame bytes now)) =
      if (rxLoopBody s.rx bytes).2.followed = true then
        some { out := (rxLoopBody s.rx bytes).2, resync := s.rx.wouldResync (frameCounter bytes)
               counterGaps := (rxLoopBody s.rx bytes).1.counterGaps
               window := (rxLoopStep s (.frame bytes now)).1.window }
      else none := rfl

/-- Receivers that go on alike after a frame, both following it or neither, show the same. -/
theorem shows_same (halike : RxAlike b.rx t.rx) (hwindow : t.window = b.window) (now : UInt64)
    (hout : (rxLoopBody t.rx bytes).2 = (rxLoopBody b.rx bytes).2 ∨
      (rxLoopBody t.rx bytes).2.followed = false ∧ (rxLoopBody b.rx bytes).2.followed = false)
    (hpost : RxAlike (rxLoopBody b.rx bytes).1 (rxLoopBody t.rx bytes).1) :
    (rxLoopStep t (.frame bytes now)).1.window = (rxLoopStep b (.frame bytes now)).1.window ∧
      followedOf (rxLoopMachine.event t (.frame bytes now)) =
        followedOf (rxLoopMachine.event b (.frame bytes now)) := by
  have hfollowed : (rxLoopBody t.rx bytes).2.followed = (rxLoopBody b.rx bytes).2.followed := by
    rcases hout with hout | ⟨ht, hb⟩
    · rw [hout]
    · rw [ht, hb]
  have hsame : (rxLoopStep t (.frame bytes now)).1.window = (rxLoopStep b (.frame bytes now)).1.window := by
    simp only [rxLoopStep, hfollowed, hwindow, hpost.seenEpoch, halike.seenEpoch]
  refine ⟨hsame, ?_⟩
  rw [followedOf_event, followedOf_event, hsame, hfollowed, halike.wouldResync, hpost.counterGaps]
  rcases hout with hout | ⟨_, hb⟩
  · rw [hout]
  · rw [hb]
    rfl

theorem acceptedFrame_congr (halike : RxAlike b.rx t.rx) (i : RxLoopInput) :
    acceptedFrame (rxLoopMachine.event t i) = acceptedFrame (rxLoopMachine.event b i) := by
  cases i with
  | sessionEnd | peerReset mac session => rfl
  | frame bytes now =>
    rw [acceptedFrame_event, acceptedFrame_event, gateAccepts_congr halike]

theorem MirrorPair.last_concat (h : MirrorPair lb lt b t) (i : RxLoopInput) :
    lastAccepted (lt ++ [rxLoopMachine.event t i]) = lastAccepted (lb ++ [rxLoopMachine.event b i]) := by
  rw [lastAccepted_concat, lastAccepted_concat, acceptedFrame_congr h.alike, h.last]

/-- A frame that neither guard knows goes the same way in both. -/
theorem bodies_new (halike : RxAlike b.rx t.rx) (hreac : frameIsReac bytes = true)
    (hgate : (gateAccepts b.rx (cleanFrame bytes)).2 = true)
    (hb : b.rx.prevFrame ≠ some (cleanFrame bytes)) (ht : t.rx.prevFrame ≠ some (cleanFrame bytes)) :
    (rxLoopBody t.rx bytes).2 = (rxLoopBody b.rx bytes).2 ∧
      RxAlike (rxLoopBody b.rx bytes).1 (rxLoopBody t.rx bytes).1 ∧
      (rxLoopBody t.rx bytes).1.prevFrame = (rxLoopBody b.rx bytes).1.prevFrame := by
  have hgate' := (gateAccepts_congr halike (cleanFrame bytes)).trans hgate
  have hkeep := (halike.lock (cleanFrame bytes)).keep (some (cleanFrame bytes)) (some (cleanFrame bytes))
  obtain ⟨hout, hpost⟩ := hkeep.epochCheck.counterGate (cleanFrame bytes)
  rw [rxLoopBody_new hreac hgate hb, rxLoopBody_new hreac hgate' ht]
  refine ⟨hout, hpost, ?_⟩
  rw [(rxCounterGate_kept _ _).1, (rxCounterGate_kept _ _).1]
  unfold rxEpochCheck
  rw [hkeep.peerEpoch, hkeep.seenEpoch]
  split_ifs <;> rfl

/-- A session call reaches both. -/
theorem MirrorPair.session (h : MirrorPair lb lt b t) {i : RxLoopInput} (hi : ∀ bytes now, i ≠ .frame bytes now) :
    MirrorPair (lb ++ [rxLoopMachine.event b i]) (lt ++ [rxLoopMachine.event t i]) (rxLoopStep b i).1
      (rxLoopStep t i).1 := by
  have hlast := h.last_concat i
  have hrecalls := h.recalls.step i
  have hrecalls' := h.recalls'.step i
  have hnone : lastAccepted (lb ++ [rxLoopMachine.event b i]) = lastAccepted lb := by
    rw [lastAccepted_concat]
    cases i with
    | sessionEnd | peerReset mac session => rfl
    | frame bytes now => exact absurd rfl (hi bytes now)
  have hguard := h.guard
  rw [← hnone] at hguard
  have halike := h.alike
  cases i with
  | frame bytes now => exact absurd rfl (hi bytes now)
  | sessionEnd =>
    refine ⟨?_, h.window, hlast, hguard, hrecalls, hrecalls'⟩
    exact ⟨halike.accept, halike.upSrc, halike.upSrcLocked, halike.peerSession,
      congrArg (· + 1) halike.peerEpoch, halike.seenEpoch, halike.haveCounter, halike.lastCounter,
      halike.counterGaps, halike.stale⟩
  | peerReset mac session =>
    have hreset : RxAlike (rxPeerReset b.rx mac session) (rxPeerReset t.rx mac session) ∧
        (rxPeerReset b.rx mac session).prevFrame = b.rx.prevFrame ∧
        (rxPeerReset t.rx mac session).prevFrame = t.rx.prevFrame := by
      unfold rxPeerReset
      rw [halike.upSrc, halike.upSrcLocked, halike.peerSession]
      split_ifs
      · exact ⟨halike, rfl, rfl⟩
      · exact ⟨⟨halike.accept, rfl, rfl, rfl, congrArg (· + 1) halike.peerEpoch, halike.seenEpoch,
          halike.haveCounter, halike.lastCounter, halike.counterGaps, halike.stale⟩, rfl, rfl⟩
    refine ⟨hreset.1, h.window, hlast, ?_, hrecalls, hrecalls'⟩
    rw [← hreset.2.1, ← hreset.2.2] at hguard
    exact hguard

/-- A frame reaches both. -/
theorem MirrorPair.hears (h : MirrorPair lb lt b t) (bytes : List UInt8) (now : UInt64)
    (hclosed : ¬ Reopens lb (rxLoopMachine.event b (.frame bytes now))) :
    MirrorPair (lb ++ [rxLoopMachine.event b (.frame bytes now)])
        (lt ++ [rxLoopMachine.event t (.frame bytes now)]) (rxLoopStep b (.frame bytes now)).1
        (rxLoopStep t (.frame bytes now)).1 ∧
      followedOf (rxLoopMachine.event t (.frame bytes now)) =
        followedOf (rxLoopMachine.event b (.frame bytes now)) := by
  have halike := h.alike
  -- It is enough to compare the two loop bodies and the two guards behind them.
  suffices hbody : ((rxLoopBody t.rx bytes).2 = (rxLoopBody b.rx bytes).2 ∨
        (rxLoopBody t.rx bytes).2.followed = false ∧ (rxLoopBody b.rx bytes).2.followed = false) ∧
      RxAlike (rxLoopBody b.rx bytes).1 (rxLoopBody t.rx bytes).1 ∧
      ((rxLoopBody t.rx bytes).1.prevFrame = (rxLoopBody b.rx bytes).1.prevFrame ∨
        (rxLoopBody b.rx bytes).1.prevFrame = none ∧ (rxLoopBody t.rx bytes).1.prevFrame ≠ none ∧
        (rxLoopBody t.rx bytes).1.prevFrame =
          lastAccepted (lb ++ [rxLoopMachine.event b (.frame bytes now)])) by
    obtain ⟨hout, hpost, hguard⟩ := hbody
    obtain ⟨hwindow, hshows⟩ := shows_same halike h.window now hout hpost
    exact ⟨⟨hpost, hwindow, h.last_concat _, hguard, h.recalls.step _, h.recalls'.step _⟩, hshows⟩
  have hgates := gateAccepts_congr halike (cleanFrame bytes)
  have hnone : ∀ hno : frameIsReac bytes = false ∨ (gateAccepts b.rx (cleanFrame bytes)).2 = false,
      lastAccepted (lb ++ [rxLoopMachine.event b (.frame bytes now)]) = lastAccepted lb := by
    intro hno
    rw [lastAccepted_concat, acceptedFrame_none hno now, Option.none_or]
  cases hreac : frameIsReac bytes with
  | false =>
    rw [rxLoopBody_ignored hreac, rxLoopBody_ignored hreac, hnone (.inl hreac)]
    exact ⟨.inl rfl, halike, h.guard⟩
  | true =>
    cases hgate : (gateAccepts b.rx (cleanFrame bytes)).2 with
    | false =>
      rw [rxLoopBody_refused hreac hgate, rxLoopBody_refused hreac (hgates.trans hgate),
        hnone (.inr hgate)]
      exact ⟨.inl rfl, halike.count .., h.guard⟩
    | true =>
      have hgate' := hgates.trans hgate
      have hacc := acceptedFrame_of hreac hgate now
      by_cases hb : b.rx.prevFrame = some (cleanFrame bytes)
      · -- A repeat that the first run drops: the guards are the same, so the second drops it too.
        have ht : t.rx.prevFrame = some (cleanFrame bytes) := by
          rcases h.guard with hsame | ⟨hnone, -, -⟩
          · rw [hsame, hb]
          · rw [hnone] at hb
            cases hb
        rw [rxLoopBody_dup hreac hgate hb, rxLoopBody_dup hreac hgate' ht]
        exact ⟨.inl rfl, (halike.lock _).count .., .inl (by rw [lock_prevFrame, lock_prevFrame, hb, ht])⟩
      · by_cases ht : t.rx.prevFrame = some (cleanFrame bytes)
        · -- A copy has filled the guard of the second run: the first run refuses what it drops.
          have hdiffer : b.rx.prevFrame = none ∧ lastAccepted lb = some (cleanFrame bytes) := by
            rcases h.guard with hsame | ⟨hnone, -, hlast⟩
            · exact absurd (hsame.symm.trans ht) hb
            · exact ⟨hnone, hlast.symm.trans ht⟩
          obtain ⟨hnone, hlast⟩ := hdiffer
          have hnoticed : Noticed b.rx (cleanFrame bytes) := by
            rcases h.recalls.kept _ hlast with hkept | hnoticed
            · exact absurd hkept hb
            · exact hnoticed
          have hepoch : b.rx.peerEpoch = b.rx.seenEpoch := by
            by_contra hpending
            exact hclosed ⟨_, hacc, hlast, hnone, hpending⟩
          have hlock := h.recalls.locked _ hlast
          have hlock' : t.rx.accept = .upstream → t.rx.upSrcLocked = true := by
            rw [halike.accept, halike.upSrcLocked]
            exact hlock
          rw [rxLoopBody_dup hreac hgate' ht, repeat_refused hreac hgate hnoticed hlock hepoch,
            lock_of_locked hlock']
          have hinert : t.rx.Inert := by
            rcases halike.stale with ⟨hrun, -⟩ | ⟨-, hinert⟩
            · exact .inl (hrun.trans hnoticed.run)
            · exact hinert
          exact ⟨.inr ⟨rfl, rfl⟩, ⟨halike.accept, halike.upSrc, halike.upSrcLocked, halike.peerSession,
            halike.peerEpoch, halike.seenEpoch, halike.haveCounter, halike.lastCounter,
            halike.counterGaps, .inr ⟨.inr rfl, hinert⟩⟩, .inl ht⟩
        · obtain ⟨hout, hpost, hprev⟩ := bodies_new halike hreac hgate hb ht
          exact ⟨.inl hout, hpost, .inl hprev⟩

/-- A copy reaches the second run: nothing shows. -/
theorem MirrorPair.copy (h : MirrorPair lb lt b t) (bytes : List UInt8) (now : UInt64)
    (hlast : lastAccepted lt = some (cleanFrame bytes))
    (hclosed : ¬ Reopens lt (rxLoopMachine.event t (.frame bytes now))) :
    MirrorPair lb (lt ++ [rxLoopMachine.event t (.frame bytes now)]) b (rxLoopStep t (.frame bytes now)).1 ∧
      followedOf (rxLoopMachine.event t (.frame bytes now)) = none := by
  have halike := h.alike
  have hkeeps : lastAccepted (lt ++ [rxLoopMachine.event t (.frame bytes now)]) = lastAccepted lt := by
    rw [lastAccepted_concat]
    cases hacc : acceptedFrame (rxLoopMachine.event t (.frame bytes now)) with
    | none => rw [Option.none_or]
    | some frame =>
      obtain ⟨bytes', now', hin, -, -, rfl⟩ := acceptedFrame_some hacc
      cases hin
      rw [Option.some_or, hlast]
  have hlastb : lastAccepted lb = some (cleanFrame bytes) := h.last.symm.trans hlast
  -- It is enough that the loop body shows nothing and leaves a receiver that goes on alike.
  suffices hbody : (rxLoopBody t.rx bytes).2.followed = false ∧
      RxAlike b.rx (rxLoopBody t.rx bytes).1 ∧
      ((rxLoopBody t.rx bytes).1.prevFrame = b.rx.prevFrame ∨
        b.rx.prevFrame = none ∧ (rxLoopBody t.rx bytes).1.prevFrame ≠ none ∧
        (rxLoopBody t.rx bytes).1.prevFrame = lastAccepted lb) by
    obtain ⟨hout, hpost, hguard⟩ := hbody
    have hwindow : (rxLoopStep t (.frame bytes now)).1.window = b.window := by
      simp only [rxLoopStep, hout, hpost.seenEpoch, ← halike.seenEpoch, if_true, h.window,
        Bool.false_eq_true, if_false]
    have hnone : followedOf (rxLoopMachine.event t (.frame bytes now)) = none := by
      rw [followedOf_event, hout]
      rfl
    exact ⟨⟨hpost, hwindow, hkeeps.trans h.last, hguard, h.recalls, h.recalls'.step _⟩, hnone⟩
  cases hreac : frameIsReac bytes with
  | false =>
    rw [rxLoopBody_ignored hreac]
    exact ⟨rfl, halike, h.guard⟩
  | true =>
    cases hgate : (gateAccepts t.rx (cleanFrame bytes)).2 with
    | false =>
      rw [rxLoopBody_refused hreac hgate]
      exact ⟨rfl, halike.count .., h.guard⟩
    | true =>
      have hlock := h.recalls'.locked _ hlast
      by_cases ht : t.rx.prevFrame = some (cleanFrame bytes)
      · rw [rxLoopBody_dup hreac hgate ht, lock_of_locked hlock]
        exact ⟨rfl, halike.count .., h.guard⟩
      · have hnoticed : Noticed t.rx (cleanFrame bytes) := by
          rcases h.recalls'.kept _ hlast with hkept | hnoticed
          · exact absurd hkept ht
          · exact hnoticed
        have hepoch : t.rx.peerEpoch = t.rx.seenEpoch := by
          by_contra hpending
          exact hclosed ⟨_, acceptedFrame_of hreac hgate now, hlast, hnoticed.emptied, hpending⟩
        have hempty : b.rx.prevFrame = none := by
          rcases h.guard with hsame | ⟨hnone, -, -⟩
          · rw [← hsame, hnoticed.emptied]
          · exact hnone
        have hinert : b.rx.Inert := by
          rcases halike.stale with ⟨hrun, -⟩ | ⟨hinert, -⟩
          · exact .inl (hrun.symm.trans hnoticed.run)
          · exact hinert
        rw [repeat_refused hreac hgate hnoticed hlock hepoch]
        refine ⟨rfl, ?_, .inr ⟨hempty, by simp, hlastb.symm⟩⟩
        exact ⟨halike.accept, halike.upSrc, halike.upSrcLocked, halike.peerSession, halike.peerEpoch,
          halike.seenEpoch, halike.haveCounter, halike.lastCounter, halike.counterGaps,
          .inr ⟨hinert, .inr rfl⟩⟩

end Steps

/-! ## Mirrored inputs -/

/-- The input is a copy of a frame that the gate accepted, with or without two bytes of residue; what the
gate accepted since is other copies of it, or comes from other sources. -/
def IsCopy (log : List RxLoopEvent) (i : RxLoopInput) : Prop :=
  ∃ before e between frame now, log = before ++ e :: between ∧ acceptedFrame e = some frame ∧
    (i = .frame frame now ∨ ∃ x y, i = .frame (frame ++ [x, y]) now) ∧
    ∀ l ∈ between, ∀ g, acceptedFrame l = some g → g = frame ∨ macAt g 6 ≠ macAt frame 6

/-- What the second run takes beside the first is copies. -/
def Mirrored (rx : Rx) (is : List (Offered RxLoopInput)) : Prop :=
  ∀ is₁ i is₂, is = is₁ ++ .extra i :: is₂ →
    IsCopy (rxLoopMachine.trace (rxLoopStart rx) (is₁.map Offered.input)) i

/-- The guard keeps what it has to know: no frame of another source is accepted between a frame and its
copy, and no frame reopens a session. -/
structure GuardKept (rx : Rx) (is : List (Offered RxLoopInput)) : Prop where
  undisturbed : ∀ is₁ bytes now is₂, is = is₁ ++ .extra (.frame bytes now) :: is₂ → ∀ g,
    lastAccepted (rxLoopMachine.trace (rxLoopStart rx) (is₁.map Offered.input)) = some g →
      macAt g 6 = macAt bytes 6
  closed : ∀ log e, rxLoopMachine.StepOf (rxLoopStart rx) (is.filterMap Offered.both?) log e →
    ¬ Reopens log e
  closed' : ∀ log e, rxLoopMachine.StepOf (rxLoopStart rx) (is.map Offered.input) log e →
    ¬ Reopens log e

/-- What a run shows: its followed frames in order, the gaps it counted and its rate window. -/
def shown (s : RxLoop) (is : List RxLoopInput) : List Followed × ℕ × RateWindow :=
  ((rxLoopMachine.trace s is).filterMap followedOf, (rxLoopMachine.run s is).rx.counterGaps,
    (rxLoopMachine.run s is).window)

theorem IsCopy.last {log : List RxLoopEvent} {i : RxLoopInput} (h : IsCopy log i) :
    ∃ bytes now, i = .frame bytes now ∧
      ((∀ g, lastAccepted log = some g → macAt g 6 = macAt bytes 6) →
        lastAccepted log = some (cleanFrame bytes)) := by
  obtain ⟨before, e, between, frame, now, rfl, hacc, hshape, hbetween⟩ := h
  obtain ⟨bytes₀, now₀, hin, hreac, hgate, rfl⟩ := acceptedFrame_some hacc
  obtain ⟨hmax, hmin, hmod⟩ := gateAccepts_len hgate
  obtain ⟨bytes, rfl, hclean⟩ : ∃ bytes, i = .frame bytes now ∧ cleanFrame bytes = cleanFrame bytes₀ := by
    rcases hshape with rfl | ⟨x, y, rfl⟩
    · refine ⟨_, rfl, ?_⟩
      have hlen : frameCleanLen (cleanFrame bytes₀).length = (cleanFrame bytes₀).length := by
        unfold frameCleanLen
        rw [if_neg]
        omega
      exact List.take_of_length_le (Nat.le_of_eq hlen.symm)
    · refine ⟨_, rfl, ?_⟩
      have hlen : frameCleanLen (cleanFrame bytes₀ ++ [x, y]).length = (cleanFrame bytes₀).length := by
        simp only [frameCleanLen, List.length_append, List.length_cons, List.length_nil]
        rw [if_pos (by omega)]
        omega
      show (cleanFrame bytes₀ ++ [x, y]).take (frameCleanLen (cleanFrame bytes₀ ++ [x, y]).length) = _
      rw [hlen, List.take_left]
  refine ⟨bytes, now, rfl, ?_⟩
  have hlast : lastAccepted (before ++ e :: between) =
      ((between.reverse.findSome? acceptedFrame).or (some (cleanFrame bytes₀))) := by
    unfold lastAccepted
    rw [List.reverse_append, List.reverse_cons, List.findSome?_append, List.findSome?_append,
      List.findSome?_singleton, hacc]
    cases between.reverse.findSome? acceptedFrame <;> rfl
  intro hsrc
  rw [hlast] at hsrc ⊢
  rw [hclean]
  cases hfind : between.reverse.findSome? acceptedFrame with
  | none => rfl
  | some g =>
    rw [hfind, Option.some_or] at hsrc
    rw [Option.some_or]
    obtain ⟨l, hl, hg⟩ := List.exists_of_findSome?_eq_some hfind
    rcases hbetween l (List.mem_reverse.mp hl) g hg with rfl | hother
    · rfl
    · have hsame := hsrc g rfl
      rw [← macAt_cleanFrame bytes (by omega), hclean] at hsame
      exact absurd hsame hother

/-- The two runs stay together. -/
theorem twin_runs (rx : Rx) (is : List (Offered RxLoopInput)) (hm : Mirrored rx is)
    (hk : GuardKept rx is) :
    MirrorPair (rxLoopMachine.trace (rxLoopStart rx) (is.filterMap Offered.both?))
        (rxLoopMachine.trace (rxLoopStart rx) (is.map Offered.input))
        (rxLoopMachine.run (rxLoopStart rx) (is.filterMap Offered.both?))
        (rxLoopMachine.run (rxLoopStart rx) (is.map Offered.input)) ∧
      (rxLoopMachine.trace (rxLoopStart rx) (is.map Offered.input)).filterMap followedOf =
        (rxLoopMachine.trace (rxLoopStart rx) (is.filterMap Offered.both?)).filterMap followedOf := by
  induction is using List.reverseRecOn with
  | nil =>
    have hrecalls : Recalls [] (rxLoopStart rx) := by
      constructor
      · intro frame hframe
        cases hframe
      · intro frame hframe
        cases hframe
    exact ⟨⟨⟨rfl, rfl, rfl, rfl, rfl, rfl, rfl, rfl, rfl, .inl ⟨rfl, rfl⟩⟩, rfl, rfl, .inl rfl,
      hrecalls, hrecalls⟩, rfl⟩
  | append_singleton is i ih =>
    have hm' : Mirrored rx is := by
      intro is₁ j is₂ his
      exact hm is₁ j (is₂ ++ [i]) (by rw [his]; simp)
    have hk' : GuardKept rx is := by
      refine ⟨?_, ?_, ?_⟩
      · intro is₁ bytes now is₂ his
        exact hk.undisturbed is₁ bytes now (is₂ ++ [i]) (by rw [his]; simp)
      · intro log e he
        refine hk.closed log e ?_
        rw [List.filterMap_append]
        exact he.append rxLoopMachine _
      · intro log e he
        refine hk.closed' log e ?_
        rw [List.map_append]
        exact he.append rxLoopMachine _
    obtain ⟨htwin, hshown⟩ := ih hm' hk'
    have hmap : (is ++ [i]).map Offered.input = is.map Offered.input ++ [i.input] := by simp
    have hclosed' : ¬ Reopens (rxLoopMachine.trace (rxLoopStart rx) (is.map Offered.input))
        (rxLoopMachine.event (rxLoopMachine.run (rxLoopStart rx) (is.map Offered.input)) i.input) := by
      refine hk.closed' _ _ ?_
      rw [hmap]
      exact rxLoopMachine.stepOf_last _ _ _
    rw [hmap, rxLoopMachine.trace_concat, rxLoopMachine.run_concat]
    cases i with
    | both i =>
      have hboth : (is ++ [Offered.both i]).filterMap Offered.both? = is.filterMap Offered.both? ++ [i] := by
        simp [Offered.both?]
      have hclosed : ¬ Reopens (rxLoopMachine.trace (rxLoopStart rx) (is.filterMap Offered.both?))
          (rxLoopMachine.event (rxLoopMachine.run (rxLoopStart rx) (is.filterMap Offered.both?)) i) := by
        refine hk.closed _ _ ?_
        rw [hboth]
        exact rxLoopMachine.stepOf_last _ _ _
      rw [hboth, rxLoopMachine.trace_concat, rxLoopMachine.run_concat, List.filterMap_append,
        List.filterMap_append, hshown]
      cases i with
      | sessionEnd => exact ⟨htwin.session (by simp), rfl⟩
      | peerReset mac session => exact ⟨htwin.session (by simp), rfl⟩
      | frame bytes now =>
        obtain ⟨hnext, hshows⟩ := htwin.hears bytes now hclosed
        refine ⟨hnext, ?_⟩
        simp only [Offered.input, List.filterMap_cons, hshows]
    | extra i =>
      have hboth : (is ++ [Offered.extra i]).filterMap Offered.both? = is.filterMap Offered.both? := by
        simp [Offered.both?]
      obtain ⟨bytes, now, rfl, hcopy⟩ := (hm is i [] rfl).last
      obtain ⟨hnext, hshows⟩ := htwin.copy bytes now (hcopy (hk.undisturbed is bytes now [] rfl)) hclosed'
      rw [hboth, List.filterMap_append, hshown]
      refine ⟨hnext, ?_⟩
      simp only [Offered.input, List.filterMap_cons, hshows, List.filterMap_nil, List.append_nil]

/-- While the guard keeps what it has to know, mirrored copies leave no trace: the same frames are
decoded, followed out of turn and credited to the rate window, and the same gaps are counted. -/
theorem mirror_twins_leave_no_trace (rx : Rx) (is : List (Offered RxLoopInput)) (hm : Mirrored rx is)
    (hk : GuardKept rx is) :
    shown (rxLoopStart rx) (is.map Offered.input) =
      shown (rxLoopStart rx) (is.filterMap Offered.both?) := by
  obtain ⟨htwin, hshown⟩ := twin_runs rx is hm hk
  exact Prod.ext hshown (Prod.ext htwin.alike.counterGaps htwin.window)

theorem rxLoopBody_epochs {rx : Rx} (h : rx.peerEpoch = rx.seenEpoch) (bytes : List UInt8) :
    (rxLoopBody rx bytes).1.peerEpoch = (rxLoopBody rx bytes).1.seenEpoch := by
  have hlock : ∀ f, (rx.lock f).peerEpoch = (rx.lock f).seenEpoch := by
    intro f
    unfold Rx.lock
    split_ifs <;> exact h
  cases hreac : frameIsReac bytes with
  | false =>
    rw [rxLoopBody_ignored hreac]
    exact h
  | true =>
    cases hgate : (gateAccepts rx (cleanFrame bytes)).2 with
    | false =>
      rw [rxLoopBody_refused hreac hgate]
      exact h
    | true =>
      by_cases hprev : rx.prevFrame = some (cleanFrame bytes)
      · rw [rxLoopBody_dup hreac hgate hprev]
        exact hlock _
      · have hcheck : rxEpochCheck { rx.lock (cleanFrame bytes) with prevFrame := some (cleanFrame bytes) }
            = { rx.lock (cleanFrame bytes) with prevFrame := some (cleanFrame bytes) } :=
          rxEpochCheck_of_eq (hlock _)
        rw [rxLoopBody_new hreac hgate hprev, hcheck]
        unfold rxCounterGate rxFollow
        dsimp only
        split_ifs <;> exact hlock _

/-- Without session calls no frame reopens a session. -/
theorem closed_of_frames {rx : Rx} {is : List RxLoopInput} (h : ∀ i ∈ is, ∃ bytes now, i = .frame bytes now) :
    ∀ log e, rxLoopMachine.StepOf (rxLoopStart rx) is log e → ¬ Reopens log e := by
  rintro log e he ⟨_, _, _, _, hpending⟩
  have hepoch := rxLoopMachine.trace_invariant_at (H := fun _ s => s.rx.peerEpoch = s.rx.seenEpoch)
    (L := fun _ e => ∃ bytes now, e.input = .frame bytes now) rfl ?_
    (fun log e he => h _ (he.input_mem rxLoopMachine)) he
  · exact hpending hepoch.1
  · rintro log s i hs ⟨bytes, now, hi⟩
    obtain rfl : i = .frame bytes now := hi
    exact rxLoopBody_epochs hs bytes

/-- Inputs with one copy in them, right behind the frame it is a copy of. -/
theorem mirrored_of_one {rx : Rx} {is₁ is₂ : List (Offered RxLoopInput)} {bytes : List UInt8}
    {now now' : UInt64} {i : RxLoopInput}
    (h₁ : ∀ j, .extra j ∉ is₁) (h₂ : ∀ j, .extra j ∉ is₂)
    (hacc : acceptedFrame (rxLoopMachine.event (rxLoopMachine.run (rxLoopStart rx)
      (is₁.map Offered.input)) (.frame bytes now)) = some bytes)
    (hi : i = .frame bytes now' ∨ ∃ x y, i = .frame (bytes ++ [x, y]) now') :
    Mirrored rx (is₁ ++ .both (.frame bytes now) :: .extra i :: is₂) := by
  intro js₁ j js₂ hjs
  have hsplit : (is₁ ++ [.both (.frame bytes now)]) ++ .extra i :: is₂ = js₁ ++ .extra j :: js₂ := by
    rw [← hjs]
    simp
  have hnone : .extra j ∉ is₁ ++ [.both (.frame bytes now)] := by
    rw [List.mem_append, List.mem_singleton]
    rintro (h | h)
    · exact h₁ j h
    · cases h
  obtain ⟨rfl, hij, -⟩ := (List.append_cons_inj_of_notMem hnone (h₂ j)).mp hsplit
  obtain rfl : i = j := Offered.extra.inj hij
  refine ⟨rxLoopMachine.trace (rxLoopStart rx) (is₁.map Offered.input), _, [], bytes, now', ?_, hacc, hi, ?_⟩
  · rw [List.map_append]
    exact rxLoopMachine.trace_concat _ _ _
  · intro l hl
    cases hl

/-- A session ends right after its first frame and its copy. -/
def copiedAcrossSessions : List (Offered RxLoopInput) :=
  [.both .sessionEnd] ++ .both (.frame (returnFrame 0 7 1) 0) ::
    .extra (.frame (returnFrame 0 7 1 ++ [0xaa, 0xbb]) 0) ::
    [.both .sessionEnd, .both (.frame (returnFrame 0 7 1) 0)]

/-- The copy of the first frame of a session puts that frame back into the guard, and the repeat with
which the next session opens is lost. -/
theorem mirror_twin_costs_a_frame : ¬ ∀ rx is, Mirrored rx is →
    shown (rxLoopStart rx) (is.map Offered.input) =
      shown (rxLoopStart rx) (is.filterMap Offered.both?) := by
  intro h
  have hm : Mirrored { accept := .upstream } copiedAcrossSessions :=
    mirrored_of_one (by simp) (by simp) (by decide +kernel) (.inr ⟨0xaa, 0xbb, rfl⟩)
  have hlen := congrArg (fun shows => shows.1.length) (h _ _ hm)
  revert hlen
  decide +kernel

/-- A frame with its mirror copy, then the next frame. -/
def copiedOnce : List (Offered RxLoopInput) :=
  [] ++ .both (.frame (returnFrame 0xff 0xff 1) 0) ::
    .extra (.frame (returnFrame 0xff 0xff 1 ++ [0xaa, 0xbb]) 0) ::
    [.both (.frame (returnFrame 0 0 2) 250000000)]

theorem mirror_twins_leave_no_trace_once :
    shown (rxLoopStart { accept := .upstream }) (copiedOnce.map Offered.input) =
      shown (rxLoopStart { accept := .upstream }) (copiedOnce.filterMap Offered.both?) := by
  refine mirror_twins_leave_no_trace _ _ ?_ ⟨?_, closed_of_frames ?_, closed_of_frames ?_⟩
  · exact mirrored_of_one (by simp) (by simp) (by decide +kernel) (.inr ⟨0xaa, 0xbb, rfl⟩)
  · intro is₁ bytes now is₂ his g hg
    have hsplit : [.both (.frame (returnFrame 0xff 0xff 1) 0)] ++
        .extra (.frame (returnFrame 0xff 0xff 1 ++ [0xaa, 0xbb]) 0) ::
          [.both (.frame (returnFrame 0 0 2) 250000000)] =
        is₁ ++ Offered.extra (RxLoopInput.frame bytes now) :: is₂ := his
    obtain ⟨rfl, hij, -⟩ := (List.append_cons_inj_of_notMem (by simp) (by simp)).mp hsplit
    cases hij
    have hlast : lastAccepted (rxLoopMachine.trace (rxLoopStart { accept := .upstream })
        [.frame (returnFrame 0xff 0xff 1) 0]) = some (returnFrame 0xff 0xff 1) := by
      decide +kernel
    obtain rfl := Option.some.inj (hlast.symm.trans hg)
    decide +kernel
  · simp [copiedOnce, Offered.both?]
  · simp [copiedOnce, Offered.input]

end Libreac
