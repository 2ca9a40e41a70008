import Mathlib.Algebra.GroupWithZero.Nat
import Libreac.RxFeed
import Libreac.Proofs.MirrorProofs

/-!
# Proofs: what the gaps and the rate window account for

The receiver follows one counter with two memories: the counter gate's, which books the gaps, and the
rate window's, which credits a frame with its distance from the one before. They go together
(`Accounts`), but for a resync: it starts the gate's count over and not the window's, so the window is
credited with the way back.
-/

namespace Libreac

open Reactive (Event sinceLast fromLast sinceLast_concat fromLast_concat)

/-! ## What a run shows -/

/-- The step noticed that the peer epoch had moved. -/
def noticedEpoch (e : RxFeedEvent) : Bool := e.post.loop.rx.seenEpoch ≠ e.pre.loop.rx.seenEpoch

def atSeam (e : RxFeedEvent) : Bool :=
  match e.input with
  | .seam => true
  | .loop _ => false

/-- The step dropped the rate window that was open. -/
def dropsWindow (e : RxFeedEvent) : Bool := atSeam e || noticedEpoch e

/-- The step followed a frame that is not ahead of the counter. -/
def resynced (e : RxFeedEvent) : Bool :=
  match followedCounter e with
  | some counter => e.pre.loop.rx.wouldResync counter
  | none => false

/-- The step reset `have_counter`. -/
def resetsCounter (e : RxFeedEvent) : Bool := dropsWindow e || resynced e

/-- The step evaluated the rate window. -/
def evaluates (e : RxFeedEvent) : Bool := e.post.loop.window.seq ≠ e.pre.loop.window.seq

/-- The frames that the last evaluation found in its window. -/
def published (e : RxFeedEvent) : Option UInt32 := e.post.loop.window.estimate.map Prod.fst

def gapsBooked (e : RxFeedEvent) : ℕ := e.post.loop.rx.counterGaps - e.pre.loop.rx.counterGaps

/-- The counters that were accepted, and the gaps booked. -/
def acceptedIn (log : List RxFeedEvent) : List UInt16 := log.filterMap followedCounter

def gapsIn (log : List RxFeedEvent) : ℕ := (log.map gapsBooked).sum

/-- What happened since `have_counter` was reset. -/
def stretch (log : List RxFeedEvent) : List RxFeedEvent := fromLast resetsCounter log

/-- What happened since the rate window was opened: since the last evaluation, or from the step that
dropped the window before. -/
def windowOf (log : List RxFeedEvent) : List RxFeedEvent := fromLast dropsWindow (sinceLast evaluates log)

/-- The window was opened by the first frame after a reset, not by the evaluation of another. -/
def openedFresh (log : List RxFeedEvent) : Bool := (sinceLast dropsWindow log).all (!evaluates ·)

/-- The frames a resync is credited with beyond the one it is. -/
def excess (e : RxFeedEvent) : ℕ :=
  match followedCounter e with
  | some counter =>
    if e.pre.loop.rx.wouldResync counter then (counterGap e.pre.loop.rx.lastCounter counter).toNat else 0
  | none => 0

def excessIn (log : List RxFeedEvent) : ℕ := (log.map excess).sum

/-! ## The rate window -/

/-- The first frame opens the window and is not counted. -/
theorem updatePpm_first {w : RateWindow} (h : w.haveLast = false) (counter : UInt16) (now : UInt64) :
    updatePpm w counter now = { w with startNs := now, haveLast := true, lastCounter := counter } := by
  unfold updatePpm
  rw [h]
  simp

/-- Any other frame is credited with its distance, to the window it may close. -/
theorem updatePpm_next {w : RateWindow} (h : w.haveLast = true) (counter : UInt16) (now : UInt64) :
    let w' := updatePpm w counter now
    let frames := w.frames + ((counterGap w.lastCounter counter).toUInt32 + 1)
    w'.haveLast = true ∧ w'.lastCounter = counter ∧
      (w'.seq = w.seq ∧ w'.frames = frames ∨
        w'.seq = w.seq + 1 ∧ w'.frames = 0 ∧ w'.estimate.map Prod.fst = some frames) := by
  intro w' frames
  simp only [w', updatePpm, h, if_true]
  split_ifs
  · exact ⟨rfl, rfl, .inr ⟨rfl, rfl, rfl⟩⟩
  · exact ⟨rfl, rfl, .inl ⟨rfl, rfl⟩⟩

/-! ## The moves of the receiver -/

/-- What a step does to the counter and to the window. -/
inductive FeedMove (e : RxFeedEvent) : Prop
  /-- No frame is followed. -/
  | quiet (hnone : followedCounter e = none) (hdrops : dropsWindow e = false)
      (hhave : e.post.loop.rx.haveCounter = e.pre.loop.rx.haveCounter)
      (hlast : e.post.loop.rx.lastCounter = e.pre.loop.rx.lastCounter)
      (hgaps : e.post.loop.rx.counterGaps = e.pre.loop.rx.counterGaps)
      (hwindow : e.post.loop.window = e.pre.loop.window)
  /-- The file starts over. -/
  | seam (hnone : followedCounter e = none) (hdrops : dropsWindow e = true)
      (hhave : e.post.loop.rx.haveCounter = false)
      (hgaps : e.post.loop.rx.counterGaps = e.pre.loop.rx.counterGaps)
      (hwindow : e.post.loop.window = { e.pre.loop.window with haveLast := false, frames := 0 })
  /-- The first frame of a new peer epoch. -/
  | noticed (counter : UInt16) (now : UInt64) (hc : followedCounter e = some counter)
      (hdrops : dropsWindow e = true) (hresync : e.pre.loop.rx.wouldResync counter = false)
      (hhave : e.post.loop.rx.haveCounter = true) (hlast : e.post.loop.rx.lastCounter = counter)
      (hgaps : e.post.loop.rx.counterGaps = e.pre.loop.rx.counterGaps)
      (hwindow : e.post.loop.window = updatePpm e.pre.loop.window.forget counter now)
  /-- A frame that is followed in the epoch the loop knows. -/
  | followed (counter : UInt16) (now : UInt64) (hc : followedCounter e = some counter)
      (hdrops : dropsWindow e = false) (hhave : e.post.loop.rx.haveCounter = true)
      (hlast : e.post.loop.rx.lastCounter = counter)
      (hresync : e.pre.loop.rx.wouldResync counter =
        (e.pre.loop.rx.haveCounter && !counterAhead e.pre.loop.rx.lastCounter counter))
      (hgaps : e.post.loop.rx.counterGaps = e.pre.loop.rx.counterGaps +
        if e.pre.loop.rx.haveCounter && counterAhead e.pre.loop.rx.lastCounter counter then
          (counterGap e.pre.loop.rx.lastCounter counter).toNat else 0)
      (hwindow : e.post.loop.window = updatePpm e.pre.loop.window counter now)

/-- The counter gate refuses the frame, or follows it. -/
theorem rxCounterGate_moves (rx : Rx) (frame : List UInt8) :
    let rx' := (rxCounterGate rx frame).1
    (rxCounterGate rx frame).2.followed = false ∧ rx.haveCounter = true ∧ rx'.haveCounter = true ∧
        rx'.lastCounter = rx.lastCounter ∧ rx'.counterGaps = rx.counterGaps ∨
      (rxCounterGate rx frame).2.followed = true ∧ rx'.haveCounter = true ∧
        rx'.lastCounter = frameCounter frame ∧ rx'.counterGaps = rx.counterGaps +
          if rx.haveCounter && counterAhead rx.lastCounter (frameCounter frame) then
            (counterGap rx.lastCounter (frameCounter frame)).toNat else 0 := by
  have hgaps : ∀ (rx : Rx) counter, (rxFollow rx counter frame).1.counterGaps = rx.counterGaps +
      if rx.haveCounter then (counterGap rx.lastCounter counter).toNat else 0 := by
    intro rx counter
    unfold rxFollow
    dsimp only
    split_ifs <;> rfl
  intro rx'
  by_cases hbehind : rx.haveCounter ∧ counterAhead rx.lastCounter (frameCounter frame) = false
  · by_cases hrun : rx.nextRun (frameCounter frame) < 8
    · have hgate : rxCounterGate rx frame =
          ({ rx with staleRun := rx.nextRun (frameCounter frame), staleLast := frameCounter frame,
                     framesOther := rx.framesOther + 1 }, .other) := by
        unfold rxCounterGate
        dsimp only
        rw [if_pos hbehind, if_pos hrun]
      simp only [rx']
      rw [hgate]
      exact .inl ⟨rfl, hbehind.1, hbehind.1, rfl, rfl⟩
    · have hgate : rxCounterGate rx frame = rxFollow
          { rx with staleRun := rx.nextRun (frameCounter frame), staleLast := frameCounter frame,
                    haveCounter := false } (frameCounter frame) frame := by
        unfold rxCounterGate
        dsimp only
        rw [if_pos hbehind, if_neg hrun]
      simp only [rx']
      rw [hgate]
      obtain ⟨hhave, hlast, -⟩ := rxFollow_counter
        { rx with staleRun := rx.nextRun (frameCounter frame), staleLast := frameCounter frame,
                  haveCounter := false } (frameCounter frame) frame
      refine .inr ⟨rxFollow_followed _ _ _, hhave, hlast, (hgaps _ _).trans ?_⟩
      simp [hbehind.2]
  · have hgate : rxCounterGate rx frame = rxFollow rx (frameCounter frame) frame := by
      unfold rxCounterGate
      dsimp only
      rw [if_neg hbehind]
    simp only [rx']
    rw [hgate]
    obtain ⟨hhave, hlast, -⟩ := rxFollow_counter rx (frameCounter frame) frame
    refine .inr ⟨rxFollow_followed _ _ _, hhave, hlast, (hgaps _ _).trans ?_⟩
    cases hcounting : rx.haveCounter with
    | false => rfl
    | true =>
      have hahead : counterAhead rx.lastCounter (frameCounter frame) = true := by
        by_contra hne
        exact hbehind ⟨hcounting, by simpa using hne⟩
      rw [hahead]
      rfl

/-- The body past the stream gate and the guard: the lock and the kept frame change nothing else. -/
theorem epochCheck_new (rx : Rx) (frame : List UInt8) :
    let rx₀ := rxEpochCheck { rx.lock frame with prevFrame := some frame }
    rx₀.haveCounter = (rxEpochCheck rx).haveCounter ∧ rx₀.lastCounter = rx.lastCounter ∧
      rx₀.counterGaps = rx.counterGaps ∧ rx₀.seenEpoch = (rxEpochCheck rx).seenEpoch := by
  intro rx₀
  simp only [rx₀]
  unfold rxEpochCheck Rx.lock
  by_cases hlock : rx.accept = .upstream ∧ rx.upSrcLocked = false
  · rw [if_pos hlock]
    dsimp only
    split_ifs <;> exact ⟨rfl, rfl, rfl, rfl⟩
  · rw [if_neg hlock]
    dsimp only
    split_ifs <;> exact ⟨rfl, rfl, rfl, rfl⟩

theorem rxFeedStep_frame (s : RxFeed) (bytes : List UInt8) (now : UInt64) :
    let e := rxFeedMachine.event s (.loop (.frame bytes now))
    let body := rxLoopBody s.loop.rx bytes
    e.post.loop.rx = body.1 ∧
      followedCounter e = (if body.2.followed then some (frameCounter bytes) else none) ∧
      noticedEpoch e = decide (body.1.seenEpoch ≠ s.loop.rx.seenEpoch) ∧
      e.post.loop.window =
        let window := if body.1.seenEpoch = s.loop.rx.seenEpoch then s.loop.window else s.loop.window.forget
        if body.2.followed then updatePpm window (frameCounter bytes) now else window :=
  ⟨rfl, rfl, rfl, rfl⟩

/-- A frame that is not followed changes neither the counter nor the window. -/
theorem FeedMove.kept {s : RxFeed} {bytes : List UInt8}
    (hout : (rxLoopBody s.loop.rx bytes).2.followed = false)
    (hhave : (rxLoopBody s.loop.rx bytes).1.haveCounter = s.loop.rx.haveCounter)
    (hlast : (rxLoopBody s.loop.rx bytes).1.lastCounter = s.loop.rx.lastCounter)
    (hgaps : (rxLoopBody s.loop.rx bytes).1.counterGaps = s.loop.rx.counterGaps)
    (hseen : (rxLoopBody s.loop.rx bytes).1.seenEpoch = s.loop.rx.seenEpoch) (now : UInt64) :
    FeedMove (rxFeedMachine.event s (.loop (.frame bytes now))) := by
  obtain ⟨hrx, hcounter, hnoticed, hwindow⟩ := rxFeedStep_frame s bytes now
  rw [hout] at hcounter hwindow
  rw [hseen] at hnoticed hwindow
  refine .quiet hcounter ?_ (hrx ▸ hhave) (hrx ▸ hlast) (hrx ▸ hgaps) ?_
  · unfold dropsWindow
    rw [hnoticed]
    simp [atSeam]
  · rw [hwindow]
    simp

/-- A frame that passes the gate and the guard. -/
theorem FeedMove.new {s : RxFeed} {bytes : List UInt8} (hreac : frameIsReac bytes = true)
    (hgate : (gateAccepts s.loop.rx (cleanFrame bytes)).2 = true)
    (hprev : s.loop.rx.prevFrame ≠ some (cleanFrame bytes)) (now : UInt64) :
    FeedMove (rxFeedMachine.event s (.loop (.frame bytes now))) := by
  have hbody := rxLoopBody_new hreac hgate hprev
  obtain ⟨hhave₀, hlast₀, hgaps₀, hseen₀⟩ := epochCheck_new s.loop.rx (cleanFrame bytes)
  dsimp only at hhave₀ hlast₀ hgaps₀ hseen₀
  generalize hrx₀ : rxEpochCheck { s.loop.rx.lock (cleanFrame bytes) with
    prevFrame := some (cleanFrame bytes) } = rx₀ at hbody hhave₀ hlast₀ hgaps₀ hseen₀
  have hseen : (rxLoopBody s.loop.rx bytes).1.seenEpoch = (rxEpochCheck s.loop.rx).seenEpoch := by
    rw [hbody, (rxCounterGate_kept _ _).2, hseen₀]
  have hmoves := rxCounterGate_moves rx₀ (cleanFrame bytes)
  dsimp only at hmoves
  rw [← hbody, hhave₀, hlast₀, hgaps₀, frameCounter_cleanFrame] at hmoves
  obtain ⟨hrx, hcounter, hnoticed, hwindow⟩ := rxFeedStep_frame s bytes now
  dsimp only at hrx hcounter hnoticed hwindow
  by_cases hepoch : s.loop.rx.peerEpoch = s.loop.rx.seenEpoch
  · rw [rxEpochCheck_of_eq hepoch] at hmoves hseen
    rcases hmoves with ⟨hout, hcounting, hhave, hlast, hgaps⟩ | ⟨hout, hhave, hlast, hgaps⟩
    · exact .kept hout (hhave.trans hcounting.symm) hlast hgaps hseen now
    · rw [hout, hseen] at hwindow
      simp only [if_true] at hwindow
      rw [hout] at hcounter
      refine .followed _ now hcounter ?_ (hrx ▸ hhave) (hrx ▸ hlast) ?_ (hrx ▸ hgaps) hwindow
      · unfold dropsWindow
        rw [hnoticed, hseen]
        simp [atSeam]
      · unfold Rx.wouldResync
        rw [rxEpochCheck_of_eq (by exact hepoch)]
  · have hcheck : (rxEpochCheck s.loop.rx).haveCounter = false ∧
        (rxEpochCheck s.loop.rx).seenEpoch = s.loop.rx.peerEpoch := by
      unfold rxEpochCheck
      rw [if_pos hepoch]
      exact ⟨rfl, rfl⟩
    rw [hcheck.1] at hmoves
    rw [hcheck.2] at hseen
    rcases hmoves with ⟨-, hcounting, -⟩ | ⟨hout, hhave, hlast, hgaps⟩
    · cases hcounting
    · rw [hout, hseen, if_neg hepoch] at hwindow
      rw [hout] at hcounter
      refine .noticed _ now hcounter ?_ ?_ (hrx ▸ hhave) (hrx ▸ hlast) (hrx ▸ hgaps) hwindow
      · unfold dropsWindow
        rw [hnoticed, hseen]
        simp [hepoch]
      · unfold Rx.wouldResync
        simp only [rxFeedMachine, Reactive.Machine.event_pre, hcheck.1, Bool.false_and]

theorem feedMove (s : RxFeed) (i : RxFeedInput) : FeedMove (rxFeedMachine.event s i) := by
  cases i with
  | seam => exact .seam rfl rfl rfl rfl rfl
  | loop i =>
    cases i with
    | sessionEnd => exact .quiet rfl (by simp [dropsWindow, atSeam, noticedEpoch, rxFeedStep, rxLoopStep, rxSessionEnd]) rfl rfl rfl rfl
    | peerReset mac session =>
      have hkept : (rxPeerReset s.loop.rx mac session).haveCounter = s.loop.rx.haveCounter ∧
          (rxPeerReset s.loop.rx mac session).lastCounter = s.loop.rx.lastCounter ∧
          (rxPeerReset s.loop.rx mac session).counterGaps = s.loop.rx.counterGaps ∧
          (rxPeerReset s.loop.rx mac session).seenEpoch = s.loop.rx.seenEpoch := by
        unfold rxPeerReset
        split_ifs <;> exact ⟨rfl, rfl, rfl, rfl⟩
      refine .quiet rfl ?_ hkept.1 hkept.2.1 hkept.2.2.1 rfl
      simp [dropsWindow, atSeam, noticedEpoch, rxFeedStep, rxLoopStep, hkept.2.2.2]
    | frame bytes now =>
      cases hreac : frameIsReac bytes with
      | false =>
        have hbody := @rxLoopBody_ignored s.loop.rx _ hreac
        apply FeedMove.kept <;> rw [hbody]
        rfl
      | true =>
        cases hgate : (gateAccepts s.loop.rx (cleanFrame bytes)).2 with
        | false =>
          have hbody := rxLoopBody_refused hreac hgate
          apply FeedMove.kept <;> rw [hbody]
          rfl
        | true =>
          by_cases hprev : s.loop.rx.prevFrame = some (cleanFrame bytes)
          · have hbody := rxLoopBody_dup hreac hgate hprev
            have hlock : (s.loop.rx.lock (cleanFrame bytes)).haveCounter = s.loop.rx.haveCounter ∧
                (s.loop.rx.lock (cleanFrame bytes)).lastCounter = s.loop.rx.lastCounter ∧
                (s.loop.rx.lock (cleanFrame bytes)).counterGaps = s.loop.rx.counterGaps ∧
                (s.loop.rx.lock (cleanFrame bytes)).seenEpoch = s.loop.rx.seenEpoch := by
              unfold Rx.lock
              split_ifs <;> exact ⟨rfl, rfl, rfl, rfl⟩
            obtain ⟨h₁, h₂, h₃, h₄⟩ := hlock
            apply FeedMove.kept <;> rw [hbody]
            · rfl
            · exact h₁
            · exact h₂
            · exact h₃
            · exact h₄
          · exact .new hreac hgate hprev now

/-! ## The account -/

section Account

variable {log : List RxFeedEvent} {e : RxFeedEvent}

theorem acceptedIn_concat (log : List RxFeedEvent) (e : RxFeedEvent) :
    acceptedIn (log ++ [e]) = acceptedIn log ++ (followedCounter e).toList := by
  unfold acceptedIn
  rw [List.filterMap_append]
  cases hc : followedCounter e with
  | none => simp [hc]
  | some counter => simp [hc]

theorem gapsIn_concat (log : List RxFeedEvent) (e : RxFeedEvent) :
    gapsIn (log ++ [e]) = gapsIn log + gapsBooked e := by
  simp [gapsIn]

theorem excessIn_concat (log : List RxFeedEvent) (e : RxFeedEvent) :
    excessIn (log ++ [e]) = excessIn log + excess e := by
  simp [excessIn]

theorem stretch_concat (log : List RxFeedEvent) (e : RxFeedEvent) :
    stretch (log ++ [e]) = if resetsCounter e then [e] else stretch log ++ [e] := fromLast_concat ..

theorem windowOf_concat (log : List RxFeedEvent) (e : RxFeedEvent) :
    windowOf (log ++ [e]) =
      if evaluates e then [] else if dropsWindow e then [e] else windowOf log ++ [e] := by
  unfold windowOf
  rw [sinceLast_concat]
  split_ifs with heval hdrops
  · rfl
  · rw [fromLast_concat, if_pos hdrops]
  · rw [fromLast_concat, if_neg hdrops]

theorem openedFresh_concat (log : List RxFeedEvent) (e : RxFeedEvent) :
    openedFresh (log ++ [e]) = if dropsWindow e then true else openedFresh log && !evaluates e := by
  unfold openedFresh
  rw [sinceLast_concat]
  split_ifs
  · rfl
  · rw [List.all_append]
    simp

/-- The counters accepted in the list lead to `last`, with the gaps booked there. -/
def Booked (log : List RxFeedEvent) (last : UInt16) : Prop :=
  ∃ first rest, acceptedIn log = first :: rest ∧ (first :: rest).getLast? = some last ∧
    last - first = UInt16.ofNat (rest.length + gapsIn log)

/-- Nothing to continue: neither memory has a counter. -/
structure Idle (log : List RxFeedEvent) (s : RxFeed) : Prop where
  have_last : s.loop.window.haveLast = false
  frames : s.loop.window.frames = 0
  unbooked : acceptedIn (stretch log) = [] ∧ gapsIn (stretch log) = 0
  uncredited : acceptedIn (windowOf log) = [] ∧ gapsIn (windowOf log) = 0 ∧ excessIn (windowOf log) = 0
  fresh : openedFresh log = true

/-- The frames credited so far, but for the first of a fresh window. -/
def Credited (fresh : Bool) (log : List RxFeedEvent) (frames : UInt32) : Prop :=
  frames + (if fresh then 1 else 0) =
    UInt32.ofNat ((acceptedIn log).length + gapsIn log + excessIn log)

/-- Both memories are at the last accepted counter. -/
structure Counting (log : List RxFeedEvent) (s : RxFeed) : Prop where
  have_last : s.loop.window.haveLast = true
  same : s.loop.window.lastCounter = s.loop.rx.lastCounter
  booked : Booked (stretch log) s.loop.rx.lastCounter
  credited : Credited (openedFresh log) (windowOf log) s.loop.window.frames

/-- The account of the receiver. -/
structure Accounts (log : List RxFeedEvent) (s : RxFeed) : Prop where
  idle : s.loop.rx.haveCounter = false → Idle log s
  counting : s.loop.rx.haveCounter = true → Counting log s

/-- One more frame, a distance of `gap` behind the last. -/
theorem Booked.next {last counter : UInt16} (h : Booked log last) (hc : followedCounter e = some counter)
    (hgaps : gapsBooked e = (counterGap last counter).toNat) : Booked (log ++ [e]) counter := by
  obtain ⟨first, rest, hfirst, -, hsum⟩ := h
  refine ⟨first, rest ++ [counter], ?_, ?_, ?_⟩
  · rw [acceptedIn_concat, hfirst, hc]
    rfl
  · rw [← List.cons_append, List.getLast?_concat]
  · rw [gapsIn_concat, hgaps, List.length_append, List.length_singleton]
    have hsplit : rest.length + 1 + (gapsIn log + (counterGap last counter).toNat) =
        (rest.length + gapsIn log) + ((counterGap last counter).toNat + 1) := by omega
    rw [hsplit, UInt16.ofNat_add, ← hsum, UInt16.ofNat_add, UInt16.ofNat_toNat]
    have hone : UInt16.ofNat 1 = 1 := rfl
    rw [hone]
    unfold counterGap
    grind

/-- The first frame of a stretch. -/
theorem Booked.first {counter : UInt16} (hnone : acceptedIn log = [] ∧ gapsIn log = 0)
    (hc : followedCounter e = some counter) (hgaps : gapsBooked e = 0) : Booked (log ++ [e]) counter := by
  refine ⟨counter, [], ?_, rfl, ?_⟩
  · rw [acceptedIn_concat, hnone.1, hc]
    rfl
  · rw [gapsIn_concat, hnone.2, hgaps]
    simp

/-- A frame credited with its distance, which was booked as gaps or is the excess of a resync. -/
theorem Credited.next {fresh : Bool} {frames : UInt32} {counter gap : UInt16}
    (h : Credited fresh log frames) (hc : followedCounter e = some counter)
    (hgap : gapsBooked e + excess e = gap.toNat) :
    Credited fresh (log ++ [e]) (frames + (gap.toUInt32 + 1)) := by
  unfold Credited at h ⊢
  rw [acceptedIn_concat, gapsIn_concat, excessIn_concat, hc, List.length_append]
  have hsplit : (acceptedIn log).length + (some counter).toList.length + (gapsIn log + gapsBooked e) +
      (excessIn log + excess e) =
        ((acceptedIn log).length + gapsIn log + excessIn log) + (gap.toNat + 1) := by
    rw [← hgap]
    simp only [Option.toList_some, List.length_singleton]
    omega
  have hgap32 := UInt32.ofNat_uInt16ToNat gap
  rw [hsplit, UInt32.ofNat_add, ← h, UInt32.ofNat_add, hgap32]
  have hone : UInt32.ofNat 1 = 1 := rfl
  rw [hone]
  grind

/-! ## One step -/

variable {s s' : RxFeed}

theorem gapsBooked_of_eq (h : e.post.loop.rx.counterGaps = e.pre.loop.rx.counterGaps) : gapsBooked e = 0 := by
  unfold gapsBooked
  omega

theorem resynced_of_none (h : followedCounter e = none) : resynced e = false ∧ excess e = 0 := by
  unfold resynced excess
  rw [h]
  exact ⟨rfl, rfl⟩

theorem evaluates_of_eq (h : e.post.loop.window.seq = e.pre.loop.window.seq) : evaluates e = false :=
  decide_eq_false fun hne => hne h

/-- A step that follows no frame leaves the account as it is. -/
theorem Accounts.quiet (h : Accounts log e.pre) (hnone : followedCounter e = none)
    (hdrops : dropsWindow e = false) (hhave : e.post.loop.rx.haveCounter = e.pre.loop.rx.haveCounter)
    (hlast : e.post.loop.rx.lastCounter = e.pre.loop.rx.lastCounter)
    (hgaps : e.post.loop.rx.counterGaps = e.pre.loop.rx.counterGaps)
    (hwindow : e.post.loop.window = e.pre.loop.window) : Accounts (log ++ [e]) e.post := by
  obtain ⟨hresync, hexcess⟩ := resynced_of_none hnone
  have hbooked := gapsBooked_of_eq hgaps
  have heval : evaluates e = false := evaluates_of_eq (by rw [hwindow])
  have hstretch : stretch (log ++ [e]) = stretch log ++ [e] := by
    rw [stretch_concat]
    simp [resetsCounter, hdrops, hresync]
  have hwin : windowOf (log ++ [e]) = windowOf log ++ [e] := by
    rw [windowOf_concat]
    simp [heval, hdrops]
  have hfresh : openedFresh (log ++ [e]) = openedFresh log := by
    rw [openedFresh_concat]
    simp [heval, hdrops]
  have haccepted : ∀ l, acceptedIn (l ++ [e]) = acceptedIn l := by
    intro l
    rw [acceptedIn_concat, hnone]
    simp
  have hgapsIn : ∀ l, gapsIn (l ++ [e]) = gapsIn l := fun l => by rw [gapsIn_concat, hbooked, Nat.add_zero]
  have hexcessIn : ∀ l, excessIn (l ++ [e]) = excessIn l := fun l => by
    rw [excessIn_concat, hexcess, Nat.add_zero]
  constructor
  · intro hno
    obtain ⟨h₁, h₂, h₃, h₄, h₅⟩ := h.idle (hhave.symm.trans hno)
    refine ⟨?_, ?_, ?_, ?_, hfresh.trans h₅⟩
    · rw [hwindow, h₁]
    · rw [hwindow, h₂]
    · rw [hstretch, haccepted, hgapsIn]
      exact h₃
    · rw [hwin, haccepted, hgapsIn, hexcessIn]
      exact h₄
  · intro hyes
    obtain ⟨h₁, h₂, h₃, h₄⟩ := h.counting (hhave.symm.trans hyes)
    refine ⟨?_, ?_, ?_, ?_⟩
    · rw [hwindow, h₁]
    · rw [hwindow, h₂, hlast]
    · rw [hstretch, hlast]
      unfold Booked
      rw [haccepted, hgapsIn]
      exact h₃
    · rw [hwin, hfresh, hwindow]
      unfold Credited
      rw [haccepted, hgapsIn, hexcessIn]
      exact h₄

/-- The first frame after the counter was dropped, where nothing came since. -/
theorem Accounts.opened {counter : UInt16} {now : UInt64} {w : RateWindow} {l k : List RxFeedEvent}
    (hc : followedCounter e = some counter) (hresync : e.pre.loop.rx.wouldResync counter = false)
    (hhave : e.post.loop.rx.haveCounter = true) (hlast : e.post.loop.rx.lastCounter = counter)
    (hgaps : e.post.loop.rx.counterGaps = e.pre.loop.rx.counterGaps)
    (hwindow : e.post.loop.window = updatePpm w counter now) (hw : w.haveLast = false)
    (hframes : w.frames = 0) (hl : stretch (log ++ [e]) = l ++ [e]) (hk : windowOf (log ++ [e]) = k ++ [e])
    (hlnone : acceptedIn l = [] ∧ gapsIn l = 0)
    (hknone : acceptedIn k = [] ∧ gapsIn k = 0 ∧ excessIn k = 0)
    (hfresh : openedFresh (log ++ [e]) = true) : Accounts (log ++ [e]) e.post := by
  have hbooked := gapsBooked_of_eq hgaps
  have hexcess : excess e = 0 := by
    unfold excess
    simp only [hc, hresync, Bool.false_eq_true, if_false]
  refine ⟨fun hno => ?_, fun _ => ⟨?_, ?_, ?_, ?_⟩⟩
  · rw [hhave] at hno
    cases hno
  · rw [hwindow, updatePpm_first hw]
  · rw [hwindow, updatePpm_first hw, hlast]
  · rw [hl, hlast]
    exact .first hlnone hc hbooked
  · rw [hk, hfresh, hwindow, updatePpm_first hw]
    unfold Credited
    rw [acceptedIn_concat, gapsIn_concat, excessIn_concat, hknone.1, hknone.2.1, hknone.2.2, hbooked,
      hexcess, hc, hframes]
    rfl

/-- What a followed frame does, where there is a counter to continue: it is credited with its distance, to
the window that it may close. -/
theorem Counting.followed {counter : UInt16} {now : UInt64} (h : Counting log e.pre)
    (hhave : e.pre.loop.rx.haveCounter = true) (hc : followedCounter e = some counter)
    (hdrops : dropsWindow e = false) (hlast : e.post.loop.rx.lastCounter = counter)
    (hresync : e.pre.loop.rx.wouldResync counter =
      (e.pre.loop.rx.haveCounter && !counterAhead e.pre.loop.rx.lastCounter counter))
    (hgaps : e.post.loop.rx.counterGaps = e.pre.loop.rx.counterGaps +
      if e.pre.loop.rx.haveCounter && counterAhead e.pre.loop.rx.lastCounter counter then
        (counterGap e.pre.loop.rx.lastCounter counter).toNat else 0)
    (hwindow : e.post.loop.window = updatePpm e.pre.loop.window counter now) :
    Counting (log ++ [e]) e.post ∧ (evaluates e = true → ∃ frames, published e = some frames ∧
      Credited (openedFresh log) (windowOf log ++ [e]) frames) := by
  obtain ⟨hw, hsame, hbooked, hcredited⟩ := h
  rw [hhave, Bool.true_and] at hresync hgaps
  have hresynced : resynced e = !counterAhead e.pre.loop.rx.lastCounter counter := by
    unfold resynced
    simp only [hc, hresync]
  have hexcess : excess e = if counterAhead e.pre.loop.rx.lastCounter counter then 0 else
      (counterGap e.pre.loop.rx.lastCounter counter).toNat := by
    unfold excess
    simp only [hc, hresync]
    cases counterAhead e.pre.loop.rx.lastCounter counter <;> rfl
  have hgapsBooked : gapsBooked e = if counterAhead e.pre.loop.rx.lastCounter counter then
      (counterGap e.pre.loop.rx.lastCounter counter).toNat else 0 := by
    unfold gapsBooked
    omega
  have hdistance : gapsBooked e + excess e = (counterGap e.pre.loop.rx.lastCounter counter).toNat := by
    rw [hgapsBooked, hexcess]
    split_ifs <;> omega
  have hnext := hcredited.next hc hdistance
  have hstretch : Booked (stretch (log ++ [e])) counter := by
    rw [stretch_concat, resetsCounter, hdrops, hresynced, Bool.false_or]
    cases hahead : counterAhead e.pre.loop.rx.lastCounter counter with
    | true =>
      rw [hahead, if_pos rfl] at hgapsBooked
      exact hbooked.next hc hgapsBooked
    | false =>
      rw [hahead] at hgapsBooked
      exact @Booked.first [] e counter ⟨rfl, rfl⟩ hc hgapsBooked
  obtain ⟨hw', hlast', hframes⟩ := updatePpm_next hw counter now
  rw [← hwindow] at hw' hlast' hframes
  rw [hsame] at hframes
  rcases hframes with ⟨hseq, hframes⟩ | ⟨hseq, hframes, hpublished⟩
  · have heval := evaluates_of_eq hseq
    refine ⟨⟨hw', hlast'.trans hlast.symm, hlast ▸ hstretch, ?_⟩, fun h => ?_⟩
    · rw [windowOf_concat, openedFresh_concat, heval, hdrops, hframes]
      simpa using hnext
    · rw [heval] at h
      cases h
  · have heval : evaluates e = true := by
      refine decide_eq_true ?_
      rw [hseq]
      simp
    refine ⟨⟨hw', hlast'.trans hlast.symm, hlast ▸ hstretch, ?_⟩, fun _ => ⟨_, hpublished, hnext⟩⟩
    rw [windowOf_concat, openedFresh_concat, heval, hdrops, hframes]
    simp [Credited, acceptedIn, gapsIn, excessIn]

/-- One step keeps the account, and an evaluation publishes what it says. -/
theorem Accounts.step (h : Accounts log e.pre) (hmove : FeedMove e) :
    Accounts (log ++ [e]) e.post ∧ (evaluates e = true → dropsWindow e = false ∧ followedCounter e ≠ none ∧
      ∃ frames, published e = some frames ∧ Credited (openedFresh log) (windowOf log ++ [e]) frames) := by
  cases hmove with
  | quiet hnone hdrops hhave hlast hgaps hwindow =>
    refine ⟨h.quiet hnone hdrops hhave hlast hgaps hwindow, fun heval => ?_⟩
    rw [evaluates_of_eq (by rw [hwindow])] at heval
    cases heval
  | seam hnone hdrops hhave hgaps hwindow =>
    have heval : evaluates e = false := evaluates_of_eq (by rw [hwindow])
    have hbooked := gapsBooked_of_eq hgaps
    obtain ⟨-, hexcess⟩ := resynced_of_none hnone
    have hstretch : stretch (log ++ [e]) = [e] := by
      rw [stretch_concat, resetsCounter, hdrops]
      rfl
    have hwin : windowOf (log ++ [e]) = [e] := by
      rw [windowOf_concat, heval, hdrops]
      rfl
    have hempty : acceptedIn [e] = [] ∧ gapsIn [e] = 0 ∧ excessIn [e] = 0 := by
      simp [acceptedIn, gapsIn, excessIn, hnone, hbooked, hexcess]
    refine ⟨⟨fun _ => ⟨?_, ?_, ?_, ?_, ?_⟩, fun hyes => ?_⟩, fun h => ?_⟩
    · rw [hwindow]
    · rw [hwindow]
    · rw [hstretch]
      exact ⟨hempty.1, hempty.2.1⟩
    · rw [hwin]
      exact hempty
    · rw [openedFresh_concat, if_pos hdrops]
    · rw [hhave] at hyes
      cases hyes
    · rw [heval] at h
      cases h
  | noticed counter now hc hdrops hresync hhave hlast hgaps hwindow =>
    have hfirst := updatePpm_first (w := e.pre.loop.window.forget) rfl counter now
    have heval : evaluates e = false := evaluates_of_eq (by rw [hwindow, hfirst]; rfl)
    refine ⟨.opened (l := []) (k := []) hc hresync hhave hlast hgaps hwindow rfl rfl ?_ ?_ ⟨rfl, rfl⟩
      ⟨rfl, rfl, rfl⟩ ?_, fun h => ?_⟩
    · rw [stretch_concat, resetsCounter, hdrops]
      rfl
    · rw [windowOf_concat, heval, hdrops]
      rfl
    · rw [openedFresh_concat, if_pos hdrops]
    · rw [heval] at h
      cases h
  | followed counter now hc hdrops hhave hlast hresync hgaps hwindow =>
    cases hcounting : e.pre.loop.rx.haveCounter with
    | false =>
      obtain ⟨hw, hframes, hstretch, hwin, hfresh⟩ := h.idle hcounting
      rw [hcounting, Bool.false_and] at hresync hgaps
      have heval : evaluates e = false := evaluates_of_eq (by rw [hwindow, updatePpm_first hw])
      have hresynced : resynced e = false := by
        unfold resynced
        simp only [hc, hresync]
      refine ⟨.opened hc hresync hhave hlast hgaps hwindow hw hframes ?_ ?_ hstretch hwin ?_, fun h => ?_⟩
      · rw [stretch_concat, resetsCounter, hdrops, hresynced]
        rfl
      · rw [windowOf_concat, heval, hdrops]
        rfl
      · rw [openedFresh_concat, hdrops, hfresh, heval]
        rfl
      · rw [heval] at h
        cases h
    | true =>
      obtain ⟨hpost, heval⟩ :=
        (h.counting hcounting).followed hcounting hc hdrops hlast hresync hgaps hwindow
      refine ⟨⟨fun hno => ?_, fun _ => hpost⟩, fun h => ⟨hdrops, by simp [hc], heval h⟩⟩
      rw [hhave] at hno
      cases hno

/-! ## Resyncs -/

/-- A resync goes back, which is at least half the numbers forward. -/
theorem excess_bounds (e : RxFeedEvent) :
    (resynced e = true → 32768 ≤ excess e ∧ excess e ≤ 65535) ∧ (resynced e = false → excess e = 0) := by
  unfold resynced excess
  cases followedCounter e with
  | none => simp
  | some counter =>
    dsimp only
    constructor
    · intro hresync
      rw [if_pos hresync]
      unfold Rx.wouldResync rxEpochCheck counterAhead at hresync
      have hlast : (if e.pre.loop.rx.peerEpoch ≠ e.pre.loop.rx.seenEpoch then
          ({ e.pre.loop.rx with seenEpoch := e.pre.loop.rx.peerEpoch, haveCounter := false, staleRun := 0,
                                prevFrame := none } : Rx)
          else e.pre.loop.rx).lastCounter = e.pre.loop.rx.lastCounter := by
        split_ifs <;> rfl
      rw [hlast] at hresync
      have hback : ¬ counterGap e.pre.loop.rx.lastCounter counter < 0x8000 := by
        simpa using (Bool.and_eq_true_iff.mp hresync).2
      have hle := (counterGap e.pre.loop.rx.lastCounter counter).toNat_lt
      have h8000 : (0x8000 : UInt16).toNat = 32768 := rfl
      rw [UInt16.lt_iff_toNat_lt] at hback
      omega
    · intro hnone
      simp only [hnone, Bool.false_eq_true, if_false]

theorem excessIn_bounds (log : List RxFeedEvent) :
    32768 * log.countP resynced ≤ excessIn log ∧ excessIn log ≤ 65535 * log.countP resynced := by
  induction log using List.reverseRecOn with
  | nil => simp [excessIn]
  | append_singleton log e ih =>
    obtain ⟨hresync, hnone⟩ := excess_bounds e
    rw [excessIn_concat, List.countP_append, List.countP_singleton]
    cases hr : resynced e with
    | true =>
      have := hresync hr
      simp only [if_true]
      omega
    | false =>
      have := hnone hr
      simp only [Bool.false_eq_true, if_false]
      omega

theorem accounts_start (rx : Rx) : Accounts [] (rxFeedStart rx) :=
  ⟨fun _ => ⟨rfl, rfl, ⟨rfl, rfl⟩, ⟨rfl, rfl, rfl⟩, rfl⟩, nofun⟩

theorem accounts_step {log : List RxFeedEvent} {s : RxFeed} (h : Accounts log s) (i : RxFeedInput) :
    Accounts (log ++ [rxFeedMachine.event s i]) (rxFeedMachine.step s i).1 :=
  (Accounts.step (e := rxFeedMachine.event s i) h (feedMove s i)).1

/-- The frames of a window, credited as they should be, with the excess of the resyncs. -/
theorem Credited.split {fresh : Bool} {frames : UInt32} (h : Credited fresh log frames)
    (hsome : fresh = true → acceptedIn log ≠ []) :
    frames = UInt32.ofNat ((acceptedIn log).length + gapsIn log - if fresh then 1 else 0) +
      UInt32.ofNat (excessIn log) := by
  unfold Credited at h
  cases fresh with
  | false =>
    rw [← UInt32.ofNat_add]
    simpa using h
  | true =>
    have hpos : 0 < (acceptedIn log).length := List.length_pos_iff.mpr (hsome rfl)
    have hsplit : (acceptedIn log).length + gapsIn log + excessIn log =
        ((acceptedIn log).length + gapsIn log - 1) + excessIn log + 1 := by omega
    have hone : UInt32.ofNat 1 = 1 := rfl
    rw [hsplit, UInt32.ofNat_add, UInt32.ofNat_add, hone] at h
    simp only [if_true] at h ⊢
    grind

/-- The gaps account for every stretch of accepted counters. A rate window is credited with its frames
and gaps if no frame of it was a resync, and only then, short of resyncs enough to wrap the count. -/
theorem rate_window_accounts (rx : Rx) (is : List RxFeedInput) :
    (∀ pre post, rxFeedMachine.trace (rxFeedStart rx) is = pre ++ post →
      ∀ first rest, acceptedIn (stretch pre) = first :: rest → ∀ last ∈ (first :: rest).getLast?,
        last - first = UInt16.ofNat (rest.length + gapsIn (stretch pre))) ∧
    ∀ log e, rxFeedMachine.StepOf (rxFeedStart rx) is log e → evaluates e = true →
      let window := windowOf log ++ [e]
      let counted := (acceptedIn window).length + gapsIn window - if openedFresh log then 1 else 0
      ((∀ r ∈ window, resynced r = false) → published e = some (UInt32.ofNat counted)) ∧
      (published e = some (UInt32.ofNat counted) →
        (∀ r ∈ window, resynced r = false) ∨ 65537 < window.countP resynced) := by
  refine ⟨fun pre post hsplit first rest hfirst last hlast => ?_, fun log e he heval => ?_⟩
  · obtain ⟨is₁, is₂, -, rfl, -⟩ := rxFeedMachine.trace_eq_append hsplit
    have hacc : Accounts (rxFeedMachine.trace (rxFeedStart rx) is₁) (rxFeedMachine.run (rxFeedStart rx) is₁) :=
      rxFeedMachine.trace_invariant (L := fun _ _ => True) (accounts_start rx)
        (fun _ _ i h _ => accounts_step h i) is₁ fun _ _ _ => trivial
    cases hcounting : (rxFeedMachine.run (rxFeedStart rx) is₁).loop.rx.haveCounter with
    | false =>
      rw [(hacc.idle hcounting).unbooked.1] at hfirst
      cases hfirst
    | true =>
      obtain ⟨first', rest', hfirst', hlast', hsum⟩ := (hacc.counting hcounting).booked
      obtain ⟨rfl, rfl⟩ := List.cons.inj (hfirst.symm.trans hfirst')
      obtain rfl := Option.some.inj (hlast'.symm.trans hlast)
      exact hsum
  · obtain ⟨hacc, heq⟩ := rxFeedMachine.trace_invariant_at (H := Accounts) (L := fun _ _ => True)
      (accounts_start rx) (fun _ _ i h _ => accounts_step h i) (fun _ _ _ => trivial) he
    obtain ⟨-, hsome, frames, hpublished, hcredited⟩ :=
      (hacc.step (heq ▸ feedMove e.pre e.input)).2 heval
    intro window counted
    have hframes := hcredited.split fun _ => by
      rw [acceptedIn_concat]
      simp [Option.toList_eq_nil_iff, hsome]
    have hbounds := excessIn_bounds window
    constructor
    · intro hnone
      have hcount : window.countP resynced = 0 := List.countP_eq_zero.mpr fun r hr => by simp [hnone r hr]
      have hzero : excessIn window = 0 := by omega
      rw [hpublished, hframes, hzero]
      exact congrArg some (UInt32.add_zero _)
    · intro hcredit
      have hzero : UInt32.ofNat (excessIn window) = 0 := by
        have hsame := (Option.some.inj (hpublished.symm.trans hcredit)).symm.trans hframes
        grind
      have hmod : excessIn window % 4294967296 = 0 := by
        have := congrArg UInt32.toNat hzero
        simpa using this
      by_cases hcount : window.countP resynced = 0
      · left
        intro r hr
        simpa using List.countP_eq_zero.mp hcount r hr
      · right
        omega

end Account

/-- A box that counts 100, 101 and then, restarted, from 10: the eighth frame is followed. -/
def restartedBox : List RxFeedInput :=
  [.loop (.frame (returnFrame 0 100 1) 0), .loop (.frame (returnFrame 0 101 1) 0)] ++
    [10, 11, 12, 13, 14, 15, 16].map fun counter => .loop (.frame (returnFrame 0 counter 2) 0)

/-- The window that the eighth frame closes is credited with 65453 frames instead of two. -/
theorem restart_credited_in_full : ¬ ∀ rx is log e, rxFeedMachine.StepOf (rxFeedStart rx) is log e →
    evaluates e = true →
      let window := windowOf log ++ [e]
      published e = some (UInt32.ofNat
        ((acceptedIn window).length + gapsIn window - if openedFresh log then 1 else 0)) := by
  intro h
  have hwindow := h { accept := .upstream }
    (restartedBox ++ [.loop (.frame (returnFrame 0 17 2) 250000000)]) _ _
    (rxFeedMachine.stepOf_last _ _ _) (by decide +kernel)
  revert hwindow
  decide +kernel

end Libreac
