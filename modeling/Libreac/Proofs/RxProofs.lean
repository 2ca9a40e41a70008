import Mathlib.Data.List.Forall2
import Libreac.Rx
import Libreac.Proofs.BytesProofs

/-!
# Proofs: a sender behind the box cannot enter the audio

The receiver is locked on a box. Between two frames of the box at most seven forged ones arrive, none
of them ahead of the box. The three memories of the loop stay harmless (`Behind`): the last counter is
the box's, the kept frame is not ahead of it, and the refused run is no longer than the gap.
-/

namespace Libreac

variable {rx : Rx} {accept : RxAccept} {box : Mac}

/-! ## The interleaving -/

/-- A frame of the box's stream. -/
structure BoxFrame (accept : RxAccept) (box : Mac) (bytes : List UInt8) : Prop where
  reac : frameIsReac bytes = true
  src : macAt bytes 6 = box
  /-- A downstream is broadcast. -/
  dst : accept = .downstream → macAt bytes 0 = broadcastMac
  decodes : frameDecodes accept (cleanFrame bytes) = true

/-- A REAC frame that carries the box's address and a counter not ahead of `last`. -/
structure ForgedFrame (box : Mac) (last : UInt16) (bytes : List UInt8) : Prop where
  reac : frameIsReac bytes = true
  src : macAt bytes 6 = box
  behind : counterAhead last (frameCounter bytes) = false

/-- What may follow a frame of the box with counter `last` and `n` forged ones: the box's own frames,
tagged `true`, with consecutive counters, and fewer than eight forged ones in a row. -/
def Interleaved (accept : RxAccept) (box : Mac) : UInt16 → ℕ → List (Bool × List UInt8) → Prop
  | _, _, [] => True
  | last, _, (true, bytes) :: rest =>
    BoxFrame accept box bytes ∧ frameCounter bytes = last + 1 ∧
      Interleaved accept box (last + 1) 0 rest
  | last, n, (false, bytes) :: rest =>
    ForgedFrame box last bytes ∧ n + 1 < 8 ∧ Interleaved accept box last (n + 1) rest

/-- What a frame of an interleaving must come to. -/
def Verdict (frame : Bool × List UInt8) (out : RxOut) : Prop :=
  if frame.1 then out = .decoded (cleanFrame frame.2) else out = .dup ∨ out = .other

/-! ## One frame -/

/-- The receiver behind a frame of the box with counter `last` and `n` forged ones. -/
structure Behind (accept : RxAccept) (box : Mac) (last : UInt16) (n : ℕ) (rx : Rx) : Prop where
  accept : rx.accept = accept
  locked : rx.upSrcLocked = true
  src : rx.upSrc = box
  epoch : rx.peerEpoch = rx.seenEpoch
  counter : rx.haveCounter = true
  lastCounter : rx.lastCounter = last
  run : rx.staleRun ≤ n
  prev : ∀ p, rx.prevFrame = some p → counterAhead last (frameCounter p) = false
  gaps : rx.counterGaps = 0

theorem counterAhead_succ (last : UInt16) : counterAhead last (last + 1) = true := by
  unfold counterAhead counterGap
  have : last + 1 - last - 1 = 0 := by grind
  rw [this]
  decide

theorem counterAhead_self (last : UInt16) : counterAhead last last = false := by
  unfold counterAhead counterGap
  have : last - last - 1 = 0xffff := by grind
  rw [this]
  decide

theorem rxEpochCheck_of_eq (h : rx.peerEpoch = rx.seenEpoch) : rxEpochCheck rx = rx := by
  simp [rxEpochCheck, h]

/-- A frame that decodes has one of the lengths of its stream. -/
theorem frameDecodes_len {frame : List UInt8} (h : frameDecodes accept frame = true) :
    frame.length ≤ 1560 ∧
    match accept with
    | .downstream => frame.length = 1492
    | .upstream => upstreamLenOk frame.length = true := by
  unfold frameDecodes at h
  simp only [Bool.and_eq_true] at h
  cases accept with
  | downstream =>
    have hlen := of_decide_eq_true h.1
    exact ⟨by omega, hlen⟩
  | upstream =>
    refine ⟨?_, h.1⟩
    have hlen := of_decide_eq_true h.1
    omega

/-- The gate of a locked receiver changes nothing. -/
theorem gateAccepts_locked (hlock : rx.upSrcLocked = true) (frame : List UInt8) :
    gateAccepts rx frame = (rx, (gateAccepts rx frame).2) := by
  unfold gateAccepts
  split
  · dsimp only
    split_ifs <;> rfl
  · simp only [hlock, Bool.not_true, Bool.false_eq_true, if_false]
    split_ifs <;> rfl

/-- The gate of a locked receiver takes the box's frames. -/
theorem gateAccepts_box (hacc : rx.accept = accept) (hlock : rx.upSrcLocked = true)
    (hsrc : rx.upSrc = box) {bytes : List UInt8} (h : BoxFrame accept box bytes) :
    gateAccepts rx (cleanFrame bytes) = (rx, true) := by
  have hlen := (frameDecodes_len h.decodes).2
  unfold gateAccepts
  rw [hacc, macAt_cleanFrame bytes (by omega), macAt_cleanFrame bytes (by omega), h.src]
  cases accept with
  | downstream => simp [hlen, h.dst rfl, hlock, hsrc]
  | upstream => simp [hlen, hlock, hsrc]

/-- The box's next frame is decoded. -/
theorem Behind.next {last : UInt16} {n : ℕ} (h : Behind accept box last n rx) {bytes : List UInt8}
    (hb : BoxFrame accept box bytes) (hc : frameCounter bytes = last + 1) :
    Behind accept box (last + 1) 0 (rxLoopBody rx bytes).1 ∧
    Verdict (true, bytes) (rxLoopBody rx bytes).2 ∧
    (rxLoopBody rx bytes).1.framesDup = rx.framesDup ∧
    (rxLoopBody rx bytes).1.framesOther = rx.framesOther := by
  have hnew : rx.prevFrame ≠ some (cleanFrame bytes) := by
    intro hp
    have := h.prev _ hp
    rw [frameCounter_cleanFrame, hc, counterAhead_succ] at this
    cases this
  have hgap : counterGap last (last + 1) = 0 := by
    unfold counterGap
    grind
  have hstep : rxLoopBody rx bytes = ({ rx with
      prevFrame := some (cleanFrame bytes), staleRun := 0, lastCounter := last + 1
      framesOk := rx.framesOk + 1 }, .decoded (cleanFrame bytes)) := by
    have hlen := (frameDecodes_len hb.decodes).1
    have hdec := hb.decodes
    have hc' : frameCounter (cleanFrame bytes) = last + 1 := by rw [frameCounter_cleanFrame, hc]
    unfold rxLoopBody
    simp only [hb.reac, Bool.not_true, Bool.false_eq_true, if_false]
    rw [gateAccepts_box h.accept h.locked h.src hb]
    simp only [hnew, if_false, hlen, if_true]
    rw [rxEpochCheck_of_eq (by exact h.epoch), rxCounterGate]
    simp only [hc', h.lastCounter, counterAhead_succ, Bool.true_eq_false, and_false, if_false,
      rxFollow, h.counter, if_true, h.accept, hdec, hgap]
    simp
  rw [hstep]
  refine ⟨⟨h.accept, h.locked, h.src, h.epoch, h.counter, rfl, le_refl _, ?_, h.gaps⟩, rfl, rfl, rfl⟩
  rintro p hp
  obtain rfl := Option.some.inj hp
  rw [frameCounter_cleanFrame, hc, counterAhead_self]

/-- A forged frame is refused. -/
theorem Behind.forged {last : UInt16} {n : ℕ} (h : Behind accept box last n rx)
    {bytes : List UInt8} (hf : ForgedFrame box last bytes) (hn : n + 1 < 8) :
    Behind accept box last (n + 1) (rxLoopBody rx bytes).1 ∧
    Verdict (false, bytes) (rxLoopBody rx bytes).2 ∧
    (rxLoopBody rx bytes).1.framesDup + (rxLoopBody rx bytes).1.framesOther
      = rx.framesDup + rx.framesOther + 1 := by
  have hrun : rx.nextRun (frameCounter bytes) ≤ n + 1 := by
    have := h.run
    unfold Rx.nextRun
    split_ifs <;> omega
  have hstale : rx.staleRun ≤ n + 1 := Nat.le_succ_of_le h.run
  unfold rxLoopBody
  simp only [hf.reac, Bool.not_true, Bool.false_eq_true, if_false]
  rw [gateAccepts_locked h.locked]
  cases (gateAccepts rx (cleanFrame bytes)).2 with
  | false =>
    -- not of this stream at all
    exact ⟨⟨h.accept, h.locked, h.src, h.epoch, h.counter, h.lastCounter, hstale, h.prev, h.gaps⟩,
      .inr rfl, rfl⟩
  | true =>
    dsimp only
    by_cases hdup : rx.prevFrame = some (cleanFrame bytes)
    · -- a copy of the frame before it
      rw [if_pos hdup]
      refine ⟨⟨h.accept, h.locked, h.src, h.epoch, h.counter, h.lastCounter, hstale, h.prev,
        h.gaps⟩, .inl rfl, ?_⟩
      dsimp only
      omega
    · -- the counter gate refuses it, and the run of refused frames stays short
      rw [if_neg hdup]
      obtain ⟨prev, hprev, hkept⟩ : ∃ prev, (if (cleanFrame bytes).length ≤ 1560 then
          { rx with prevFrame := some (cleanFrame bytes) } else rx) = { rx with prevFrame := prev } ∧
          ∀ p, prev = some p → counterAhead last (frameCounter p) = false := by
        split_ifs
        · refine ⟨_, rfl, fun p hp => ?_⟩
          obtain rfl := Option.some.inj hp
          rw [frameCounter_cleanFrame]
          exact hf.behind
        · exact ⟨rx.prevFrame, rfl, h.prev⟩
      rw [hprev, rxEpochCheck_of_eq (by exact h.epoch), rxCounterGate, frameCounter_cleanFrame]
      have hlt : rx.nextRun (frameCounter bytes) < 8 := by omega
      dsimp only
      rw [if_pos ⟨h.counter, by rw [h.lastCounter]; exact hf.behind⟩, if_pos (by exact hlt)]
      exact ⟨⟨h.accept, h.locked, h.src, h.epoch, h.counter, h.lastCounter, hrun, hkept, h.gaps⟩,
        .inr rfl, rfl⟩

/-- A receiver locked on the box, before its first frame. -/
def lockedRx (accept : RxAccept) (box : Mac) (session epoch : UInt32) : Rx :=
  { accept, upSrc := box, upSrcLocked := true, peerSession := session, peerEpoch := epoch
    seenEpoch := epoch }

/-- The first frame of the box is decoded, whatever its counter. -/
theorem lockedRx_first (session epoch : UInt32) {bytes : List UInt8}
    (hb : BoxFrame accept box bytes) :
    Behind accept box (frameCounter bytes) 0 (rxLoopBody (lockedRx accept box session epoch) bytes).1 ∧
    Verdict (true, bytes) (rxLoopBody (lockedRx accept box session epoch) bytes).2 ∧
    (rxLoopBody (lockedRx accept box session epoch) bytes).1.framesDup = 0 ∧
    (rxLoopBody (lockedRx accept box session epoch) bytes).1.framesOther = 0 := by
  have hstep : rxLoopBody (lockedRx accept box session epoch) bytes
      = ({ lockedRx accept box session epoch with
        prevFrame := some (cleanFrame bytes), haveCounter := true, lastCounter := frameCounter bytes
        framesOk := 1 }, .decoded (cleanFrame bytes)) := by
    have hlen := (frameDecodes_len hb.decodes).1
    have hdec := hb.decodes
    have hgate : gateAccepts (lockedRx accept box session epoch) (cleanFrame bytes)
        = (lockedRx accept box session epoch, true) := gateAccepts_box rfl rfl rfl hb
    unfold rxLoopBody
    simp only [hb.reac, Bool.not_true, Bool.false_eq_true, if_false]
    rw [hgate]
    simp only [lockedRx, reduceCtorEq, if_false, hlen, if_true]
    rw [rxEpochCheck_of_eq rfl, rxCounterGate]
    simp [rxFollow, hdec, frameCounter_cleanFrame]
  rw [hstep]
  refine ⟨⟨rfl, rfl, rfl, rfl, rfl, rfl, le_refl _, ?_, rfl⟩, rfl, rfl, rfl⟩
  rintro p hp
  obtain rfl := Option.some.inj hp
  rw [frameCounter_cleanFrame, counterAhead_self]

/-! ## Whole streams -/

@[simp] theorem rxMachine_step (rx : Rx) (bytes : List UInt8) :
    rxMachine.step rx bytes = rxLoopBody rx bytes := rfl

/-- The frame a step decodes, if any. -/
def RxOut.decodedFrame : RxOut → Option (List UInt8)
  | .decoded frame => some frame
  | _ => none

/-- Behind a frame of the box, every frame of an interleaving comes to its verdict. -/
theorem Behind.stream {frames : List (Bool × List UInt8)} {last : UInt16} {n : ℕ}
    (h : Behind accept box last n rx) (hf : Interleaved accept box last n frames) :
    List.Forall₂ Verdict frames ((rxMachine.trace rx (frames.map (·.2))).map (·.out)) ∧
    (rxMachine.run rx (frames.map (·.2))).counterGaps = 0 ∧
    (rxMachine.run rx (frames.map (·.2))).framesDup
        + (rxMachine.run rx (frames.map (·.2))).framesOther
      = rx.framesDup + rx.framesOther + (frames.filter (!·.1)).length := by
  induction frames generalizing rx last n with
  | nil => exact ⟨.nil, h.gaps, rfl⟩
  | cons frame frames ih =>
    obtain ⟨tag, bytes⟩ := frame
    cases tag with
    | true =>
      obtain ⟨hb, hc, hrest⟩ := hf
      obtain ⟨h', hv, hdup, hother⟩ := h.next hb hc
      obtain ⟨ih₁, ih₂, ih₃⟩ := ih h' hrest
      refine ⟨.cons hv ih₁, ih₂, ?_⟩
      rw [hdup, hother] at ih₃
      simpa using ih₃
    | false =>
      obtain ⟨hforged, hn, hrest⟩ := hf
      obtain ⟨h', hv, hcount⟩ := h.forged hforged hn
      obtain ⟨ih₁, ih₂, ih₃⟩ := ih h' hrest
      refine ⟨.cons hv ih₁, ih₂, ?_⟩
      rw [hcount] at ih₃
      simp only [List.map_cons, Reactive.Machine.run_cons]
      refine ih₃.trans ?_
      simp
      omega

/-- The verdicts say that exactly the box's frames were decoded. -/
theorem decoded_of_verdicts {frames : List (Bool × List UInt8)} {outs : List RxOut}
    (h : List.Forall₂ Verdict frames outs) :
    outs.filterMap RxOut.decodedFrame = (frames.filter (·.1)).map (cleanFrame ·.2) := by
  induction h with
  | nil => rfl
  | cons hv hrest ih =>
    rename_i frame out frames outs
    obtain ⟨tag, bytes⟩ := frame
    cases tag with
    | true =>
      obtain rfl : out = .decoded (cleanFrame bytes) := hv
      simp [RxOut.decodedFrame, ih]
    | false =>
      rcases (show out = .dup ∨ out = .other from hv) with rfl | rfl <;> exact ih

/-- A sender behind the box cannot enter the audio. -/
theorem spoof_stays_out (accept : RxAccept) (box : Mac) (session epoch : UInt32)
    {first : List UInt8} {rest : List (Bool × List UInt8)} (hfirst : BoxFrame accept box first)
    (hrest : Interleaved accept box (frameCounter first) 0 rest) :
    let frames := (true, first) :: rest
    let outs := (rxMachine.trace (lockedRx accept box session epoch) (frames.map (·.2))).map (·.out)
    let rx := rxMachine.run (lockedRx accept box session epoch) (frames.map (·.2))
    outs.filterMap RxOut.decodedFrame = (frames.filter (·.1)).map (cleanFrame ·.2) ∧
    rx.counterGaps = 0 ∧ List.Forall₂ Verdict frames outs ∧
    rx.framesDup + rx.framesOther = (frames.filter (!·.1)).length := by
  obtain ⟨h, hv, hdup, hother⟩ := lockedRx_first session epoch hfirst
  obtain ⟨hverdicts, hgaps, hcount⟩ := h.stream hrest
  have hall : List.Forall₂ Verdict ((true, first) :: rest)
      ((rxMachine.trace (lockedRx accept box session epoch)
        (((true, first) :: rest).map (·.2))).map (·.out)) := .cons hv hverdicts
  rw [hdup, hother] at hcount
  refine ⟨decoded_of_verdicts hall, hgaps, hall, ?_⟩
  simpa using hcount

/-- A two-channel return frame from the address `02:…`, with counter `hi lo` and audio `fill`. -/
def returnFrame (hi lo fill : UInt8) : List UInt8 :=
  List.replicate 6 0x01 ++ List.replicate 6 0x02 ++ [0x88, 0x19, lo, hi] ++ List.replicate 106 fill
    ++ [0xc2, 0xea]

/-- The address of the box that sends `returnFrame`. -/
def returnBox : Mac := Vector.replicate 6 0x02

/-- The box counts over the wrap; a forged frame repeats its counter, another is far behind. -/
theorem spoof_stays_out_wrap :
    let frames := [(true, returnFrame 0xff 0xff 1), (false, returnFrame 0xff 0xff 7),
      (false, returnFrame 0x80 0x00 7), (true, returnFrame 0x00 0x00 2)]
    let outs := (rxMachine.trace (lockedRx .upstream returnBox 1 1) (frames.map (·.2))).map (·.out)
    outs.filterMap RxOut.decodedFrame = [returnFrame 0xff 0xff 1, returnFrame 0x00 0x00 2] := by
  have hbox : ∀ hi lo fill, (hi = 0xff ∧ lo = 0xff ∧ fill = 1) ∨ (hi = 0x00 ∧ lo = 0x00 ∧ fill = 2) →
      BoxFrame .upstream returnBox (returnFrame hi lo fill) := by
    rintro hi lo fill (⟨rfl, rfl, rfl⟩ | ⟨rfl, rfl, rfl⟩) <;>
      exact ⟨by decide +kernel, by decide +kernel, nofun, by decide +kernel⟩
  refine (spoof_stays_out .upstream returnBox 1 1 (hbox 0xff 0xff 1 (.inl ⟨rfl, rfl, rfl⟩)) ?_).1.trans
    (by decide +kernel)
  refine ⟨⟨by decide +kernel, by decide +kernel, by decide +kernel⟩, by omega,
    ⟨by decide +kernel, by decide +kernel, by decide +kernel⟩, by omega,
    hbox 0x00 0x00 2 (.inr ⟨rfl, rfl, rfl⟩), by decide +kernel, trivial⟩

end Libreac
