import Libreac.Proofs.RateProofs

/-!
# Proofs: when two frames carry one counter

The counter gate reports a frame that repeats the counter it stands at, and leaves it to the duplicate
guard to have taken out the copies. It does, while the guard still holds the frame the counter came from.
It no longer does behind a frame at which a peer change was noticed, and behind a refused frame: then the
copy is reported.
-/

namespace Libreac

open Reactive (Event sinceLast sinceLast_concat mem_of_mem_sinceLast)

/-! ## What a run shows -/

/-- The frame of the step, clean, if the stream gate took it. -/
def gatedFrame (e : RxFeedEvent) : Option (List UInt8) :=
  match e.input with
  | .loop (.frame bytes _) =>
    if frameIsReac bytes = true ∧ (gateAccepts e.pre.loop.rx (cleanFrame bytes)).2 = true then
      some (cleanFrame bytes)
    else none
  | _ => none

/-- The frame of the step, clean, if the counter gate followed it. -/
def followedFrame (e : RxFeedEvent) : Option (List UInt8) :=
  match e.input with
  | .loop (.frame bytes _) => if e.out.out.followed then some (cleanFrame bytes) else none
  | _ => none

/-- The frame the counter gate stands at. -/
def lastFollowed (log : List RxFeedEvent) : Option (List UInt8) := log.reverse.findSome? followedFrame

/-- The step moved the peer epoch. -/
def changesPeer (e : RxFeedEvent) : Bool := e.post.loop.rx.peerEpoch ≠ e.pre.loop.rx.peerEpoch

/-- The frames of the stream since the last peer change. -/
def heardSince (log : List RxFeedEvent) : List (List UInt8) :=
  (sinceLast changesPeer log).filterMap gatedFrame

/-- Two different frames of the locked source carry the counter. -/
def TwoFrames (log : List RxFeedEvent) (rx : Rx) (counter : UInt16) : Prop :=
  rx.upSrcLocked = true ∧ ∃ f ∈ heardSince log, ∃ g ∈ heardSince log, f ≠ g ∧
    (frameCounter f = counter ∧ macAt f 6 = rx.upSrc) ∧ (frameCounter g = counter ∧ macAt g 6 = rx.upSrc)

/-- The frame repeats the counter that the gate stands at, and would be the first to be reported. -/
structure Repeats (s : RxFeed) (frame : List UInt8) : Prop where
  unsaid : s.conflictSaid = false
  epoch : s.loop.rx.peerEpoch = s.loop.rx.seenEpoch
  counting : s.loop.rx.haveCounter = true
  counter : frameCounter frame = s.loop.rx.lastCounter
  run : s.loop.rx.nextRun (frameCounter frame) < 8

/-- A step at which the report can be relied on. -/
structure Reliable (log : List RxFeedEvent) (e : RxFeedEvent) : Prop where
  /-- A frame that repeats the counter comes from a locked source, and if it is a copy of the frame the
  counter came from then the guard still holds that. -/
  guarded : ∀ frame, gatedFrame e = some frame → Repeats e.pre frame →
    e.pre.loop.rx.upSrcLocked = true ∧
      (lastFollowed log = some frame → e.pre.loop.rx.prevFrame = some frame)
  /-- The peer epoch does not come round to the one the loop has seen. -/
  epoch : changesPeer e = true → e.post.loop.rx.peerEpoch ≠ e.post.loop.rx.seenEpoch

/-! ## The report -/

theorem rxBodyConflict_new {rx : Rx} {bytes : List UInt8} (hreac : frameIsReac bytes = true)
    (hgate : (gateAccepts rx (cleanFrame bytes)).2 = true)
    (hprev : rx.prevFrame ≠ some (cleanFrame bytes)) :
    rxBodyConflict rx bytes = rxGateConflict
      (rxEpochCheck { rx.lock (cleanFrame bytes) with prevFrame := some (cleanFrame bytes) })
      (cleanFrame bytes) := by
  have htaken := gateAccepts_taken hgate
  have hlock : (rx.lock (cleanFrame bytes)).prevFrame ≠ some (cleanFrame bytes) := by
    rw [lock_prevFrame]
    exact hprev
  unfold rxBodyConflict
  simp only [hreac, Bool.not_true, Bool.false_eq_true, if_false, if_true, htaken, hlock,
    (gateAccepts_len hgate).1]

theorem rxBodyConflict_none {rx : Rx} {bytes : List UInt8}
    (h : frameIsReac bytes = false ∨ (gateAccepts rx (cleanFrame bytes)).2 = false ∨
      rx.prevFrame = some (cleanFrame bytes)) : rxBodyConflict rx bytes = none := by
  unfold rxBodyConflict
  cases hreac : frameIsReac bytes with
  | false => rfl
  | true =>
    simp only [Bool.not_true, Bool.false_eq_true, if_false]
    cases hgate : (gateAccepts rx (cleanFrame bytes)).2 with
    | false =>
      rw [gateAccepts_eq, hgate]
    | true =>
      rcases h with h | h | h
      · rw [hreac] at h
        cases h
      · rw [hgate] at h
        cases h
      · rw [gateAccepts_taken hgate]
        dsimp only
        rw [if_pos ((lock_prevFrame _ _).trans h)]

theorem rxGateConflict_iff {rx : Rx} {frame : List UInt8} {c : RxConflict} :
    rxGateConflict rx frame = some c ↔
      (rx.haveCounter = true ∧ rx.nextRun (frameCounter frame) < 8 ∧ frameCounter frame = rx.lastCounter) ∧
        c = { counter := frameCounter frame, src := macAt frame 6 } := by
  unfold rxGateConflict
  dsimp only
  constructor
  · intro h
    split_ifs at h with hrepeat
    exact ⟨⟨hrepeat.1, hrepeat.2.2.1, hrepeat.2.2.2⟩, (Option.some.inj h).symm⟩
  · rintro ⟨⟨hhave, hrun, hcounter⟩, rfl⟩
    have hself : counterAhead rx.lastCounter (frameCounter frame) = false := by
      rw [hcounter]
      exact counterAhead_self _
    rw [if_pos ⟨hhave, hself, hrun, hcounter⟩]

/-- The lock and the kept frame are nothing to the run of refused frames. -/
theorem nextRun_new (rx : Rx) (frame : List UInt8) (counter : UInt16) :
    Rx.nextRun { rx.lock frame with prevFrame := some frame } counter = rx.nextRun counter := by
  unfold Rx.nextRun Rx.lock
  split_ifs <;> simp_all

/-- The report is made of a frame that repeats the counter and is not the one the guard holds. -/
theorem conflict_iff {s : RxFeed} {bytes : List UInt8} {now : UInt64} {c : RxConflict} :
    s.conflict (.loop (.frame bytes now)) = some c ↔
      (frameIsReac bytes = true ∧ (gateAccepts s.loop.rx (cleanFrame bytes)).2 = true) ∧
      s.loop.rx.prevFrame ≠ some (cleanFrame bytes) ∧ Repeats s (cleanFrame bytes) ∧
      c = { counter := frameCounter (cleanFrame bytes), src := macAt (cleanFrame bytes) 6 } := by
  have hnew : ∀ (hreac : frameIsReac bytes = true)
      (hgate : (gateAccepts s.loop.rx (cleanFrame bytes)).2 = true)
      (hprev : s.loop.rx.prevFrame ≠ some (cleanFrame bytes)),
      rxBodyConflict s.loop.rx bytes = some c ↔
        (s.loop.rx.peerEpoch = s.loop.rx.seenEpoch ∧ s.loop.rx.haveCounter = true ∧
          s.loop.rx.nextRun (frameCounter (cleanFrame bytes)) < 8 ∧
          frameCounter (cleanFrame bytes) = s.loop.rx.lastCounter) ∧
        c = { counter := frameCounter (cleanFrame bytes), src := macAt (cleanFrame bytes) 6 } := by
    intro hreac hgate hprev
    obtain ⟨hhave, hlast, -⟩ := epochCheck_new s.loop.rx (cleanFrame bytes)
    dsimp only at hhave hlast
    rw [rxBodyConflict_new hreac hgate hprev, rxGateConflict_iff, hhave, hlast]
    by_cases hepoch : s.loop.rx.peerEpoch = s.loop.rx.seenEpoch
    · have hlock : (s.loop.rx.lock (cleanFrame bytes)).peerEpoch =
          (s.loop.rx.lock (cleanFrame bytes)).seenEpoch := by
        unfold Rx.lock
        split_ifs <;> exact hepoch
      rw [rxEpochCheck_of_eq hepoch, rxEpochCheck_of_eq (by exact hlock), nextRun_new]
      simp only [hepoch, true_and]
    · have hfresh : (rxEpochCheck s.loop.rx).haveCounter = false := by
        unfold rxEpochCheck
        rw [if_pos hepoch]
      simp [hfresh, hepoch]
  have hconflict : s.conflict (.loop (.frame bytes now)) =
      if s.conflictSaid then none else rxBodyConflict s.loop.rx bytes := rfl
  rw [hconflict]
  constructor
  · intro h
    split_ifs at h with hsaid
    by_cases hblocked : frameIsReac bytes = false ∨ (gateAccepts s.loop.rx (cleanFrame bytes)).2 = false ∨
        s.loop.rx.prevFrame = some (cleanFrame bytes)
    · rw [rxBodyConflict_none hblocked] at h
      cases h
    · simp only [not_or, Bool.not_eq_false] at hblocked
      obtain ⟨hreac, hgate, hprev⟩ := hblocked
      obtain ⟨⟨hepoch, hhave, hrun, hcounter⟩, hc⟩ := (hnew hreac hgate hprev).mp h
      exact ⟨⟨hreac, hgate⟩, hprev, ⟨by simpa using hsaid, hepoch, hhave, hcounter, hrun⟩, hc⟩
  · rintro ⟨⟨hreac, hgate⟩, hprev, ⟨hsaid, hepoch, hhave, hcounter, hrun⟩, hc⟩
    rw [hsaid]
    exact (hnew hreac hgate hprev).mpr ⟨⟨hepoch, hhave, hrun, hcounter⟩, hc⟩

/-! ## Where the counter came from -/

section Trail

variable {log : List RxFeedEvent} {e : RxFeedEvent} {s : RxFeed} {bytes : List UInt8} {now : UInt64}

theorem heardSince_concat (log : List RxFeedEvent) (e : RxFeedEvent) :
    heardSince (log ++ [e]) = if changesPeer e then [] else heardSince log ++ (gatedFrame e).toList := by
  unfold heardSince
  rw [sinceLast_concat]
  split_ifs
  · rfl
  · rw [List.filterMap_append]
    cases hgated : gatedFrame e <;> simp [hgated]

theorem lastFollowed_concat (log : List RxFeedEvent) (e : RxFeedEvent) :
    lastFollowed (log ++ [e]) = (followedFrame e).or (lastFollowed log) := by
  unfold lastFollowed
  rw [List.reverse_append, List.reverse_singleton, List.singleton_append, List.findSome?_cons]
  cases followedFrame e <;> rfl

/-- The frame the gate stands at is of the locked source, and was heard in this epoch. -/
structure Trail (log : List RxFeedEvent) (rx : Rx) : Prop where
  locked : rx.accept = .upstream → rx.haveCounter = true → rx.upSrcLocked = true
  behind : rx.haveCounter = true → rx.peerEpoch = rx.seenEpoch →
    ∃ frame, lastFollowed log = some frame ∧ frame ∈ heardSince log ∧
      frameCounter frame = rx.lastCounter ∧ (rx.upSrcLocked = true → macAt frame 6 = rx.upSrc)

/-- What the receiver has learned stays as it was. -/
structure SameTrail (rx rx' : Rx) : Prop where
  accept : rx'.accept = rx.accept
  have_counter : rx'.haveCounter = rx.haveCounter
  counter : rx'.lastCounter = rx.lastCounter
  peer : rx'.peerEpoch = rx.peerEpoch
  seen : rx'.seenEpoch = rx.seenEpoch
  locked : rx'.upSrcLocked = rx.upSrcLocked
  src : rx'.upSrc = rx.upSrc

theorem Trail.quiet {rx : Rx} (h : Trail log rx) (hnone : followedFrame e = none)
    (hpeer : changesPeer e = false) {rx' : Rx} (hsame : SameTrail rx rx') : Trail (log ++ [e]) rx' := by
  obtain ⟨h₁, h₂, h₃, h₄, h₅, h₆, h₇⟩ := hsame
  constructor
  · rw [h₁, h₂, h₆]
    exact h.locked
  · rw [h₂, h₃, h₄, h₅, h₆, h₇]
    intro hhave hepoch
    obtain ⟨frame, hlast, hheard, hcounter, hsrc⟩ := h.behind hhave hepoch
    refine ⟨frame, ?_, ?_, hcounter, hsrc⟩
    · rw [lastFollowed_concat, hnone, Option.none_or, hlast]
    · rw [heardSince_concat, hpeer]
      exact List.mem_append_left _ hheard

/-- Without a counter there is nothing to keep. -/
theorem Trail.lost {rx : Rx} (hhave : rx.haveCounter = false) : Trail log rx :=
  ⟨fun _ h => absurd (hhave.symm.trans h) Bool.false_ne_true,
    fun h => absurd (hhave.symm.trans h) Bool.false_ne_true⟩

/-- The gate takes frames of the locked source only. -/
theorem lock_src {rx : Rx} {frame : List UInt8} (hgate : (gateAccepts rx frame).2 = true)
    (hlocked : (rx.lock frame).upSrcLocked = true) : macAt frame 6 = (rx.lock frame).upSrc := by
  unfold Rx.lock at hlocked ⊢
  split_ifs at hlocked ⊢ with hfree
  · rfl
  · unfold gateAccepts at hgate
    cases haccept : rx.accept with
    | downstream =>
      rw [haccept] at hgate
      dsimp only at hgate
      split_ifs at hgate
      rw [hlocked] at hgate
      exact (eq_of_beq hgate).symm
    | upstream =>
      rw [haccept] at hgate
      dsimp only at hgate
      split_ifs at hgate with h₁ h₂
      · simp [hlocked] at h₂
      · exact (eq_of_beq hgate).symm

/-- The body past the guard leaves the gate as the lock has left it. -/
theorem counterGate_trail (rx : Rx) (frame : List UInt8) :
    let rx' := (rxCounterGate (rxEpochCheck { rx with prevFrame := some frame }) frame).1
    rx'.accept = rx.accept ∧ rx'.upSrc = rx.upSrc ∧ rx'.upSrcLocked = rx.upSrcLocked ∧
      rx'.peerEpoch = rx.peerEpoch ∧ rx'.seenEpoch = rx.peerEpoch := by
  intro rx'
  simp only [rx']
  generalize hq : rxEpochCheck { rx with prevFrame := some frame } = q
  have hkept : (rxCounterGate q frame).1.accept = q.accept ∧ (rxCounterGate q frame).1.upSrc = q.upSrc ∧
      (rxCounterGate q frame).1.upSrcLocked = q.upSrcLocked ∧
      (rxCounterGate q frame).1.peerEpoch = q.peerEpoch ∧
      (rxCounterGate q frame).1.seenEpoch = q.seenEpoch := by
    unfold rxCounterGate rxFollow
    dsimp only
    split_ifs <;> exact ⟨rfl, rfl, rfl, rfl, rfl⟩
  have hcheck : q.accept = rx.accept ∧ q.upSrc = rx.upSrc ∧ q.upSrcLocked = rx.upSrcLocked ∧
      q.peerEpoch = rx.peerEpoch ∧ q.seenEpoch = rx.peerEpoch := by
    rw [← hq]
    unfold rxEpochCheck
    split_ifs with hepoch
    · exact ⟨rfl, rfl, rfl, rfl, rfl⟩
    · exact ⟨rfl, rfl, rfl, rfl, (not_not.mp hepoch).symm⟩
  obtain ⟨h₁, h₂, h₃, h₄, h₅⟩ := hkept
  rw [h₁, h₂, h₃, h₄, h₅]
  exact hcheck

theorem lock_epochs (rx : Rx) (frame : List UInt8) : (rx.lock frame).peerEpoch = rx.peerEpoch ∧
    (rx.lock frame).seenEpoch = rx.seenEpoch ∧ (rx.lock frame).haveCounter = rx.haveCounter ∧
    (rx.lock frame).lastCounter = rx.lastCounter := by
  unfold Rx.lock
  split_ifs <;> exact ⟨rfl, rfl, rfl, rfl⟩

theorem changesPeer_frame (h : (rxLoopBody s.loop.rx bytes).1.peerEpoch = s.loop.rx.peerEpoch) :
    changesPeer (rxFeedMachine.event s (.loop (.frame bytes now))) = false :=
  decide_eq_false fun hne => hne h

theorem followedFrame_frame (s : RxFeed) (bytes : List UInt8) (now : UInt64) :
    followedFrame (rxFeedMachine.event s (.loop (.frame bytes now))) =
      if (rxLoopBody s.loop.rx bytes).2.followed then some (cleanFrame bytes) else none := rfl

/-- A frame step. -/
theorem Trail.frame (h : Trail log s.loop.rx) (bytes : List UInt8) (now : UInt64) :
    Trail (log ++ [rxFeedMachine.event s (.loop (.frame bytes now))]) (rxLoopBody s.loop.rx bytes).1 := by
  have hfollowed := followedFrame_frame s bytes now
  cases hreac : frameIsReac bytes with
  | false =>
    have hbody := @rxLoopBody_ignored s.loop.rx _ hreac
    rw [hbody] at hfollowed
    refine h.quiet hfollowed (changesPeer_frame (by rw [hbody])) ?_
    rw [hbody]
    exact ⟨rfl, rfl, rfl, rfl, rfl, rfl, rfl⟩
  | true =>
    cases hgate : (gateAccepts s.loop.rx (cleanFrame bytes)).2 with
    | false =>
      have hbody := rxLoopBody_refused hreac hgate
      rw [hbody] at hfollowed
      refine h.quiet hfollowed (changesPeer_frame (by rw [hbody])) ?_
      rw [hbody]
      exact ⟨rfl, rfl, rfl, rfl, rfl, rfl, rfl⟩
    | true =>
      obtain ⟨hpeer, hseen, hhave, hlast⟩ := lock_epochs s.loop.rx (cleanFrame bytes)
      by_cases hprev : s.loop.rx.prevFrame = some (cleanFrame bytes)
      · have hbody := rxLoopBody_dup hreac hgate hprev
        rw [hbody] at hfollowed
        cases hcounting : s.loop.rx.haveCounter with
        | false =>
          rw [hbody]
          exact .lost (hhave.trans hcounting)
        | true =>
          rw [lock_of_locked fun hup => h.locked hup hcounting] at hbody
          refine h.quiet hfollowed (changesPeer_frame (by rw [hbody])) ?_
          rw [hbody]
          exact ⟨rfl, rfl, rfl, rfl, rfl, rfl, rfl⟩
      · have hbody := rxLoopBody_new hreac hgate hprev
        obtain ⟨haccept, hsrc, hlocked, hepoch, hepoch'⟩ :=
          counterGate_trail (s.loop.rx.lock (cleanFrame bytes)) (cleanFrame bytes)
        rw [← hbody] at haccept hsrc hlocked hepoch hepoch'
        have hquiet : changesPeer (rxFeedMachine.event s (.loop (.frame bytes now))) = false :=
          changesPeer_frame (hepoch.trans hpeer)
        have hmoves := rxCounterGate_moves
          (rxEpochCheck { s.loop.rx.lock (cleanFrame bytes) with prevFrame := some (cleanFrame bytes) })
          (cleanFrame bytes)
        obtain ⟨hhave₀, hlast₀, -⟩ := epochCheck_new s.loop.rx (cleanFrame bytes)
        dsimp only at hhave₀ hlast₀ hmoves
        rw [← hbody, hhave₀, hlast₀] at hmoves
        rcases hmoves with ⟨hout, hcounting, hhave', hlast', -⟩ | ⟨hout, hhave', hlast', -⟩
        · -- Refused: the frame the gate stands at is still the last one.
          have hsame : s.loop.rx.peerEpoch = s.loop.rx.seenEpoch := by
            by_contra hne
            unfold rxEpochCheck at hcounting
            rw [if_pos hne] at hcounting
            cases hcounting
          rw [rxEpochCheck_of_eq hsame] at hcounting
          have hfree := lock_of_locked (fun hup => h.locked hup hcounting) (cleanFrame bytes)
          rw [hfree] at haccept hsrc hlocked hepoch hepoch'
          rw [hout] at hfollowed
          exact h.quiet hfollowed hquiet
            ⟨haccept, hhave'.trans hcounting.symm, hlast', hepoch, hepoch'.trans hsame, hlocked, hsrc⟩
        · -- Followed: it is this one.
          rw [hout] at hfollowed
          constructor
          · intro hup _
            rw [hlocked]
            exact lock_locked ((lock_accept _ _).symm.trans (haccept.symm.trans hup)) _
          · intro _ _
            refine ⟨cleanFrame bytes, ?_, ?_, hlast'.symm, fun hl => ?_⟩
            · rw [lastFollowed_concat, hfollowed]
              rfl
            · have hgated : gatedFrame (rxFeedMachine.event s (.loop (.frame bytes now))) =
                  some (cleanFrame bytes) := if_pos ⟨hreac, hgate⟩
              rw [heardSince_concat, hquiet, hgated]
              exact List.mem_append_right _ (List.mem_singleton_self _)
            · rw [hsrc]
              exact lock_src hgate (hlocked.symm.trans hl)

theorem Trail.step (h : Trail log s.loop.rx) (i : RxFeedInput)
    (hr : Reliable log (rxFeedMachine.event s i)) :
    Trail (log ++ [rxFeedMachine.event s i]) (rxFeedStep s i).1.loop.rx := by
  cases i with
  | seam => exact .lost rfl
  | loop i =>
    cases i with
    | frame bytes now => exact h.frame bytes now
    | sessionEnd =>
      have hmoved : changesPeer (rxFeedMachine.event s (.loop .sessionEnd)) = true :=
        decide_eq_true (show s.loop.rx.peerEpoch + 1 ≠ s.loop.rx.peerEpoch by simp)
      exact ⟨h.locked, fun _ hepoch => absurd hepoch (hr.epoch hmoved)⟩
    | peerReset mac session =>
      by_cases hsame : s.loop.rx.upSrcLocked = true ∧ s.loop.rx.upSrc = mac ∧ s.loop.rx.peerSession = session
      · have hstep : rxPeerReset s.loop.rx mac session = s.loop.rx := by
          unfold rxPeerReset
          rw [if_pos hsame]
        have hpost : (rxFeedStep s (.loop (.peerReset mac session))).1.loop.rx = s.loop.rx := hstep
        refine h.quiet rfl (decide_eq_false fun hne => hne ?_) ?_
        · exact congrArg Rx.peerEpoch hpost
        · rw [hpost]
          exact ⟨rfl, rfl, rfl, rfl, rfl, rfl, rfl⟩
      · have hstep : rxPeerReset s.loop.rx mac session = { s.loop.rx with
            peerSession := session, upSrc := mac, upSrcLocked := true
            peerEpoch := s.loop.rx.peerEpoch + 1 } := by
          unfold rxPeerReset
          rw [if_neg hsame]
        have hpost : (rxFeedStep s (.loop (.peerReset mac session))).1.loop.rx = { s.loop.rx with
            peerSession := session, upSrc := mac, upSrcLocked := true
            peerEpoch := s.loop.rx.peerEpoch + 1 } := hstep
        have hmoved : changesPeer (rxFeedMachine.event s (.loop (.peerReset mac session))) = true := by
          refine decide_eq_true ?_
          have hpeer := congrArg Rx.peerEpoch hpost
          simp only [rxFeedMachine_step, Reactive.Machine.event_post, Reactive.Machine.event_pre, hpeer]
          simp
        refine ⟨fun _ _ => ?_, fun _ hepoch => absurd hepoch (hr.epoch hmoved)⟩
        rw [hpost]

/-- The report of one step. -/
theorem Trail.report (h : Trail log s.loop.rx) {i : RxFeedInput}
    (hr : Reliable log (rxFeedMachine.event s i)) {c : RxConflict} (hc : s.conflict i = some c) :
    TwoFrames (log ++ [rxFeedMachine.event s i]) s.loop.rx c.counter ∧ c.src = s.loop.rx.upSrc := by
  cases i with
  | seam => cases hc
  | loop i =>
    cases i with
    | sessionEnd => cases hc
    | peerReset mac session => cases hc
    | frame bytes now =>
      obtain ⟨hacc, hprev, hrepeats, rfl⟩ := conflict_iff.mp hc
      have hgated : gatedFrame (rxFeedMachine.event s (.loop (.frame bytes now))) = some (cleanFrame bytes) :=
        if_pos hacc
      obtain ⟨hlocked, hguard⟩ := hr.guarded _ hgated hrepeats
      obtain ⟨frame, hlast, hheard, hcounter, hsrc⟩ := h.behind hrepeats.counting hrepeats.epoch
      have hsrc' : macAt (cleanFrame bytes) 6 = s.loop.rx.upSrc := by
        have hkept : s.loop.rx.lock (cleanFrame bytes) = s.loop.rx := lock_of_locked (fun _ => hlocked) _
        have := lock_src hacc.2 (by rw [hkept]; exact hlocked)
        rwa [hkept] at this
      have hne : cleanFrame bytes ≠ frame := by
        rintro rfl
        exact hprev (hguard hlast)
      have hquiet : changesPeer (rxFeedMachine.event s (.loop (.frame bytes now))) = false := by
        apply changesPeer_frame
        rw [rxLoopBody_new hacc.1 hacc.2 hprev]
        have hgate := (counterGate_trail (s.loop.rx.lock (cleanFrame bytes)) (cleanFrame bytes)).2.2.2.1
        exact hgate.trans (lock_epochs _ _).1
      have hall : heardSince (log ++ [rxFeedMachine.event s (.loop (.frame bytes now))]) =
          heardSince log ++ [cleanFrame bytes] := by
        rw [heardSince_concat, hquiet, hgated]
        rfl
      refine ⟨⟨hlocked, cleanFrame bytes, ?_, frame, ?_, hne, ⟨rfl, hsrc'⟩, ?_, hsrc hlocked⟩, hsrc'⟩
      · rw [hall]
        exact List.mem_append_right _ (List.mem_singleton_self _)
      · rw [hall]
        exact List.mem_append_left _ hheard
      · exact hcounter.trans hrepeats.counter.symm

end Trail

/-! ## Whole runs -/

/-- Where the source is locked and the guard holds the frame the counter came from whenever a copy of it
comes, every report is of two different frames of the locked source. Where the guard has lost that frame,
its copy is what is reported. -/
theorem conflict_report_sound (rx : Rx) (is : List RxFeedInput) :
    ((∀ log e, rxFeedMachine.StepOf (rxFeedStart rx) is log e → Reliable log e) →
      ∀ log e, rxFeedMachine.StepOf (rxFeedStart rx) is log e → ∀ c, e.out.conflict = some c →
        TwoFrames (log ++ [e]) e.pre.loop.rx c.counter ∧ c.src = e.pre.loop.rx.upSrc) ∧
    ∀ log e, rxFeedMachine.StepOf (rxFeedStart rx) is log e → ∀ frame, gatedFrame e = some frame →
      lastFollowed log = some frame → Repeats e.pre frame → e.pre.loop.rx.prevFrame ≠ some frame →
        e.out.conflict = some { counter := frameCounter frame, src := macAt frame 6 } := by
  refine ⟨fun hreliable log e he c hc => ?_, fun log e he frame hgated _ hrepeats hprev => ?_⟩
  · obtain ⟨htrail, heq⟩ := rxFeedMachine.trace_invariant_at
      (H := fun log s => Trail log s.loop.rx) (L := Reliable) (.lost rfl)
      (fun _ _ i h hr => h.step i hr) hreliable he
    have hr := hreliable log e he
    rw [heq] at hr hc ⊢
    have hout : ∀ s i, (rxFeedMachine.event s i).out.conflict = s.conflict i := by
      intro s i
      cases i <;> rfl
    exact htrail.report hr ((hout _ _).symm.trans hc)
  · obtain ⟨-, heq⟩ := rxFeedMachine.trace_invariant_at (H := fun _ _ => True) (L := fun _ _ => True)
      trivial (fun _ _ _ _ _ => trivial) (fun _ _ _ => trivial) he
    generalize e.pre = s at *
    generalize e.input = i at *
    subst heq
    cases i with
    | seam => cases hgated
    | loop i =>
      cases i with
      | sessionEnd => cases hgated
      | peerReset mac session => cases hgated
      | frame bytes now =>
        by_cases hacc : frameIsReac bytes = true ∧ (gateAccepts s.loop.rx (cleanFrame bytes)).2 = true
        · have hframe : gatedFrame (rxFeedMachine.event s (.loop (.frame bytes now))) =
              some (cleanFrame bytes) := if_pos hacc
          obtain rfl := Option.some.inj (hframe.symm.trans hgated)
          exact (@conflict_iff s bytes now _).mpr ⟨hacc, hprev, hrepeats, rfl⟩
        · have hnone : gatedFrame (rxFeedMachine.event s (.loop (.frame bytes now))) = none := if_neg hacc
          rw [hnone] at hgated
          cases hgated

/-- Another sender repeats a counter of the box with frames of its own. -/
def impersonated : List RxFeedInput :=
  [.loop (.frame (returnFrame 0 7 1) 0), .loop (.frame (returnFrame 0 7 2) 0)]

theorem conflict_report_sound_once : ∀ log e,
    rxFeedMachine.StepOf (rxFeedStart { accept := .upstream }) impersonated log e →
      ∀ c, e.out.conflict = some c →
        TwoFrames (log ++ [e]) e.pre.loop.rx c.counter ∧ c.src = e.pre.loop.rx.upSrc := by
  refine (conflict_report_sound { accept := .upstream } impersonated).1 fun log e he => ?_
  rcases he.of_cons with ⟨rfl, rfl⟩ | ⟨log₁, rfl, he₁⟩
  · refine ⟨fun frame _ hrepeats => ?_, fun hmoved => ?_⟩
    · cases hrepeats.counting
    · revert hmoved
      decide +kernel
  · rcases he₁.of_cons with ⟨rfl, rfl⟩ | ⟨log₂, rfl, he₂⟩
    · refine ⟨fun frame hgated _ => ⟨by decide +kernel, fun hlast => ?_⟩, fun hmoved => ?_⟩
      · rw [← hgated] at hlast
        exact absurd hlast (by decide +kernel)
      · revert hmoved
        decide +kernel
    · exact absurd he₂.input_mem List.not_mem_nil

/-- A peer change, a frame of the new peer, and its mirror copy. -/
def copiedAfterReset : List RxFeedInput :=
  [.loop (.peerReset returnBox 1), .loop (.frame (returnFrame 0 7 1) 0)]

/-- The copy of the frame at which the peer change was noticed is reported: the two frames of the report
are one and the same. -/
theorem copy_reported : ¬ ∀ rx is log e, rxFeedMachine.StepOf (rxFeedStart rx) is log e →
    ∀ c, e.out.conflict = some c →
      TwoFrames (log ++ [e]) e.pre.loop.rx c.counter ∧ c.src = e.pre.loop.rx.upSrc := by
  intro h
  have htwo := h { accept := .upstream }
    (copiedAfterReset ++ [.loop (.frame (returnFrame 0 7 1 ++ [0xaa, 0xbb]) 0)]) _ _
    (rxFeedMachine.stepOf_last _ _ _) ⟨7, returnBox⟩ (by decide +kernel)
  obtain ⟨⟨-, f, hf, g, hg, hne, -⟩, -⟩ := htwo
  have hheard : heardSince (rxFeedMachine.trace (rxFeedStart { accept := .upstream })
      (copiedAfterReset ++ [.loop (.frame (returnFrame 0 7 1 ++ [0xaa, 0xbb]) 0)])) =
        [returnFrame 0 7 1, returnFrame 0 7 1] := by
    decide +kernel
  rw [← rxFeedMachine.trace_concat, hheard] at hf hg
  simp only [List.mem_cons, List.not_mem_nil, or_false, or_self] at hf hg
  exact hne (hf.trans hg.symm)

end Libreac
