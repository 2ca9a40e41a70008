import Libreac.FrameRing

/-!
# Proofs: the frame ring is a queue

Each call is what it would be on a queue of the frames that were taken and have not gone
(`FrameCallExact`), as long as the number of slots can be rounded up. Where 32 bits do not hold the
power of two, the ring has no cells and the first frame is written outside them.
-/

namespace Libreac

open Reactive (Event)

/-- One call of a run. -/
abbrev FrameRingEvent := Event (Option FrameRing) FrameRingInput FrameRingOut

/-- The bytes a slot takes of a frame. -/
def CallerFrame.clipped (frame : CallerFrame) (slotSz : UInt32) : List UInt8 :=
  frame.bytes.take (min frame.n.toNat slotSz.toNat)

/-- The frame a call put into the ring. -/
def frameTaken (slotSz : UInt32) (e : FrameRingEvent) : List (List UInt8) :=
  match e.input, e.out with
  | .push frame, .pushed true => [frame.clipped slotSz]
  | _, _ => []

/-- How many frames a call took out of it. -/
def frameGone (e : FrameRingEvent) : ℕ :=
  match e.out with
  | .popped (some _) => 1
  | .trimmed drop => drop.toNat
  | _ => 0

def framesTaken (slotSz : UInt32) (log : List FrameRingEvent) : List (List UInt8) :=
  log.flatMap (frameTaken slotSz)

def framesGone (log : List FrameRingEvent) : ℕ := (log.map frameGone).sum

/-- The frames that wait, oldest first. -/
def framesWaiting (slotSz : UInt32) (log : List FrameRingEvent) : List (List UInt8) :=
  (framesTaken slotSz log).drop (framesGone log)

/-- The calls that refused a frame, and those that found none. -/
def frameRefused (e : FrameRingEvent) : Bool := e.out = .pushed false

def frameMissed (e : FrameRingEvent) : Bool := e.out = .popped none

/-- What a call returns, given the frames that wait. -/
def FrameCallExact (slots slotSz : UInt32) (log : List FrameRingEvent) (e : FrameRingEvent) : Prop :=
  let waiting := framesWaiting slotSz log
  match e.input with
  | .push _ => e.out = .pushed (waiting.length ≠ (MaskRing.nextPow2 slots).toNat - 1)
  | .pop => e.out = .popped waiting.head?
  | .trim high target =>
    ∃ drop, e.out = .trimmed drop ∧ framesWaiting slotSz (log ++ [e]) = waiting.drop drop.toNat ∧
      (framesWaiting slotSz (log ++ [e])).length =
        if high.toNat < waiting.length ∧ target.toNat < waiting.length then target.toNat else waiting.length

/-- What a run of calls leaves: the counters, the depth and what each of the calls returned. -/
structure FrameRingExact (slots slotSz : UInt32) (is : List FrameRingInput) : Prop where
  size : ∃ k, (MaskRing.nextPow2 slots).toNat = 2 ^ k ∧ slots.toNat ≤ 2 ^ k
  counts : let log := frameRingMachine.trace (some (frameRingInit slots slotSz)) is
    ∃ r, frameRingMachine.run (some (frameRingInit slots slotSz)) is = some r ∧
      r.overruns = UInt64.ofNat (log.countP frameRefused) ∧
      r.underruns = UInt64.ofNat (log.countP frameMissed) ∧
      (frameRingReadable r).toNat = (framesWaiting slotSz log).length ∧
      framesGone log + (frameRingReadable r).toNat = (framesTaken slotSz log).length ∧
      (frameRingReadable r).toNat ≤ (MaskRing.nextPow2 slots).toNat - 1
  calls : ∀ log e, frameRingMachine.StepOf (some (frameRingInit slots slotSz)) is log e →
    FrameCallExact slots slotSz log e

/-! ## One call -/

/-- The frame in a cell. -/
def FrameRing.frameAt (r : FrameRing) (pos : ℕ) : List UInt8 :=
  (r.buf.getD pos []).take (r.len.getD pos 0).toNat

/-- The memory of the ring. -/
structure FrameRing.Ok (slots slotSz : UInt32) (r : FrameRing) : Prop where
  ring : r.ring.Ok
  cap : r.ring.cap = (MaskRing.nextPow2 slots).toNat
  width : r.slotSz = slotSz
  buf : r.buf.length = r.ring.cap
  len : r.len.length = r.ring.cap
  rows : ∀ row ∈ r.buf, row.length = slotSz.toNat
  lens : ∀ n ∈ r.len, n.toNat ≤ slotSz.toNat

section Calls

variable {slots slotSz : UInt32} {r : FrameRing}

theorem frameRingInit_ok (h : slots.toNat ≤ 2147483648) (slotSz : UInt32) :
    (frameRingInit slots slotSz).Ok slots slotSz := by
  obtain ⟨k, hk, hk', heq, -⟩ := MaskRing.nextPow2_spec h
  have hpos := Nat.two_pow_pos k
  have hcap : (frameRingInit slots slotSz).ring.cap = (MaskRing.nextPow2 slots).toNat := by
    show (MaskRing.nextPow2 slots - 1).toNat + 1 = _
    rw [UInt32.toNat_sub_of_le _ _ (UInt32.le_iff_toNat_le.mpr (by rw [heq]; exact hpos)), UInt32.toNat_one]
    omega
  refine ⟨⟨⟨k, hk, hk', hcap.trans heq⟩, ?_, ?_⟩, hcap, rfl, ?_, ?_, ?_, ?_⟩
  · exact Nat.succ_pos _
  · exact Nat.succ_pos _
  · rw [hcap]
    exact List.length_replicate
  · rw [hcap]
    exact List.length_replicate
  · intro row hrow
    rw [List.eq_of_mem_replicate hrow, List.length_replicate]
  · intro n hn
    rw [List.eq_of_mem_replicate hn]
    exact Nat.zero_le _

theorem clip_toNat (frame : CallerFrame) (slotSz : UInt32) :
    (if slotSz < frame.n.toUInt32 then slotSz.toUInt16 else frame.n).toNat =
      min frame.n.toNat slotSz.toNat := by
  have hn := frame.n.toNat_lt
  split_ifs with hlong
  · rw [UInt32.lt_iff_toNat_lt, UInt16.toNat_toUInt32] at hlong
    rw [UInt32.toNat_toUInt16]
    omega
  · rw [UInt32.lt_iff_toNat_lt, UInt16.toNat_toUInt32] at hlong
    omega

theorem FrameRing.Ok.pop (h : r.Ok slots slotSz) (n : UInt32) :
    FrameRing.Ok slots slotSz { r with ring := r.ring.pop n } :=
  ⟨h.ring.pop n, h.cap, h.width, h.buf, h.len, h.rows, h.lens⟩

/-- A full ring refuses. -/
theorem frameRingPush_full (frame : CallerFrame) (h : r.Ok slots slotSz)
    (hfull : (frameRingReadable r).toNat + 1 = r.ring.cap) :
    frameRingPush r frame = some ({ r with overruns := r.overruns + 1 }, false) := by
  unfold frameRingPush
  dsimp only
  rw [if_pos (h.ring.full_iff.mpr hfull)]

/-- Otherwise the frame comes last. -/
theorem frameRingPush_room (frame : CallerFrame) (h : r.Ok slots slotSz)
    (hroom : (frameRingReadable r).toNat + 1 < r.ring.cap) :
    ∃ r', frameRingPush r frame = some (r', true) ∧ r'.Ok slots slotSz ∧
      r'.ring.contents r'.frameAt = r.ring.contents r.frameAt ++ [frame.clipped slotSz] ∧
      r'.overruns = r.overruns ∧ r'.underruns = r.underruns := by
  obtain ⟨hring, hcap, hsz, hbuf, hlen, hrows, hlens⟩ := h
  have hn := clip_toNat frame r.slotSz
  have hslot : r.ring.head.toNat < r.buf.length := by
    rw [hbuf]
    exact hring.head
  have hslot' : r.ring.head.toNat < r.len.length := by
    rw [hlen]
    exact hring.head
  have hrow : (r.buf[r.ring.head.toNat]).length = slotSz.toNat := hrows _ (List.getElem_mem hslot)
  have hnotfull : ¬ (r.ring.head + 1) &&& r.ring.mask = r.ring.tail &&& r.ring.mask := by
    intro hfull
    have := hring.full_iff.mp hfull
    unfold frameRingReadable at hroom
    omega
  unfold frameRingPush
  dsimp only
  generalize (if r.slotSz < frame.n.toUInt32 then r.slotSz.toUInt16 else frame.n) = n at hn ⊢
  rw [hsz] at hn
  rw [if_neg hnotfull, hring.masked_head, List.getElem?_eq_getElem hslot, List.getElem?_eq_getElem hslot']
  dsimp only
  rw [if_neg (by rw [hrow]; omega)]
  refine ⟨_, rfl, ⟨hring.push 1, hcap, hsz, ?_, ?_, ?_, ?_⟩, ?_, rfl, rfl⟩
  · rw [List.length_set]
    exact hbuf
  · rw [List.length_set]
    exact hlen
  · intro row hmem
    rcases List.mem_or_eq_of_mem_set hmem with hmem | rfl
    · exact hrows row hmem
    · have hfits := frame.fits
      rw [List.length_append, List.length_take, List.length_drop, hrow]
      omega
  · intro m hmem
    rcases List.mem_or_eq_of_mem_set hmem with hmem | rfl
    · exact hlens m hmem
    · omega
  · have hnew : ((r.buf.set r.ring.head.toNat
        (frame.bytes.take n.toNat ++ (r.buf[r.ring.head.toNat]).drop n.toNat)).getD r.ring.head.toNat []).take
        ((r.len.set r.ring.head.toNat n).getD r.ring.head.toNat 0).toNat = frame.clipped slotSz := by
      have hfits := frame.fits
      rw [List.getD_eq_getElem?_getD, List.getD_eq_getElem?_getD, List.getElem?_set_self hslot,
        List.getElem?_set_self hslot']
      show (frame.bytes.take n.toNat ++ _).take n.toNat = _
      rw [List.take_append_of_le_length (by rw [List.length_take]; omega), List.take_take, Nat.min_self, hn]
      rfl
    have hpush := @MaskRing.Ok.contents_push r.ring 1 _ r.frameAt
      (FrameRing.frameAt
        { r with
          buf := r.buf.set r.ring.head.toNat
            (frame.bytes.take n.toNat ++ (r.buf[r.ring.head.toNat]).drop n.toNat)
          len := r.len.set r.ring.head.toNat n
          ring := r.ring.push 1 }) hring hroom ?_
    · refine hpush.trans (congrArg _ ?_)
      show [FrameRing.frameAt _ ((r.ring.head.toNat + 0) % r.ring.cap)] = _
      rw [Nat.add_zero, Nat.mod_eq_of_lt hring.head]
      exact congrArg (· :: []) hnew
    · intro i hi
      have hfree := hring.free (s := 0) hi (by unfold frameRingReadable at hroom; omega)
      rw [Nat.add_zero, Nat.mod_eq_of_lt hring.head] at hfree
      unfold FrameRing.frameAt
      simp only [List.getD_eq_getElem?_getD, List.getElem?_set_ne (Ne.symm hfree)]

/-- An empty ring has nothing to pop. -/
theorem frameRingPop_empty (h : r.Ok slots slotSz) (hempty : (frameRingReadable r).toNat = 0) :
    frameRingPop r = some ({ r with underruns := r.underruns + 1 }, none) := by
  unfold frameRingPop
  rw [if_pos (h.ring.empty_iff.mpr hempty)]

/-- Otherwise the first frame goes. -/
theorem frameRingPop_some (h : r.Ok slots slotSz) (hsome : 0 < (frameRingReadable r).toNat) :
    frameRingPop r = some ({ r with ring := r.ring.pop 1 }, (r.ring.contents r.frameAt).head?) := by
  obtain ⟨hring, -, -, hbuf, hlen, hrows, hlens⟩ := h
  have hslot : r.ring.tail.toNat < r.buf.length := by
    rw [hbuf]
    exact hring.tail
  have hslot' : r.ring.tail.toNat < r.len.length := by
    rw [hlen]
    exact hring.tail
  have hrow : (r.buf[r.ring.tail.toNat]).length = slotSz.toNat := hrows _ (List.getElem_mem hslot)
  have hn := hlens _ (List.getElem_mem hslot')
  have hnotempty : ¬ r.ring.tail &&& r.ring.mask = r.ring.head &&& r.ring.mask := by
    intro hempty
    have := hring.empty_iff.mp hempty
    unfold frameRingReadable at hsome
    omega
  have hhead : (r.ring.contents r.frameAt).head? = some (r.frameAt r.ring.tail.toNat) := by
    rw [List.head?_eq_getElem?, MaskRing.contents_getElem hsome, Nat.add_zero, Nat.mod_eq_of_lt hring.tail]
  have hcell : r.frameAt r.ring.tail.toNat =
      (r.buf[r.ring.tail.toNat]).take (r.len[r.ring.tail.toNat]).toNat := by
    unfold FrameRing.frameAt
    rw [List.getD_eq_getElem _ _ hslot, List.getD_eq_getElem _ _ hslot']
  unfold frameRingPop
  dsimp only
  rw [if_neg hnotempty, hring.masked_tail, hhead, hcell, List.getElem?_eq_getElem hslot,
    List.getElem?_eq_getElem hslot']
  dsimp only
  rw [if_neg (by rw [hrow]; omega)]

/-- How many frames a trim drops. -/
theorem trimCount_toNat (depth high target : UInt32) :
    (frameRingTrimCount depth high target).toNat =
      if high.toNat < depth.toNat ∧ target.toNat < depth.toNat then depth.toNat - target.toNat else 0 := by
  unfold frameRingTrimCount
  simp only [UInt32.le_iff_toNat_le]
  split_ifs with hhigh htarget hboth hboth hboth
  · omega
  · rfl
  · omega
  · rfl
  · rw [UInt32.toNat_sub_of_le _ _ (UInt32.le_iff_toNat_le.mpr (by omega))]
  · omega

end Calls

/-! ## A run -/

theorem frameRingStep_push (r : FrameRing) (frame : CallerFrame) :
    frameRingStep (some r) (.push frame) =
      match frameRingPush r frame with
      | some (r, taken) => (some r, .pushed taken)
      | none => (none, .outside) := rfl

theorem frameRingStep_pop (r : FrameRing) :
    frameRingStep (some r) .pop =
      match frameRingPop r with
      | some (r, frame) => (some r, .popped frame)
      | none => (none, .outside) := rfl

theorem frameRingStep_trim (r : FrameRing) (high target : UInt32) :
    frameRingStep (some r) (.trim high target) =
      (some (frameRingTrim r high target).1, .trimmed (frameRingTrim r high target).2) := rfl

theorem framesTaken_concat (slotSz : UInt32) (log : List FrameRingEvent) (e : FrameRingEvent) :
    framesTaken slotSz (log ++ [e]) = framesTaken slotSz log ++ frameTaken slotSz e := by
  unfold framesTaken
  rw [List.flatMap_append, List.flatMap_singleton]

theorem framesGone_concat (log : List FrameRingEvent) (e : FrameRingEvent) :
    framesGone (log ++ [e]) = framesGone log + frameGone e := by
  unfold framesGone
  rw [List.map_append, List.sum_append, List.map_singleton, List.sum_singleton]

/-- What the ring holds after the calls of `log`. -/
structure FrameRingHeld (slots slotSz : UInt32) (log : List FrameRingEvent) (r : FrameRing) : Prop where
  ok : r.Ok slots slotSz
  ledger : MaskRing.Ledger (framesTaken slotSz log) (framesGone log) (r.ring.contents r.frameAt)
  overruns : r.overruns = UInt64.ofNat (log.countP frameRefused)
  underruns : r.underruns = UInt64.ofNat (log.countP frameMissed)

section Run

variable {slots slotSz : UInt32} {log : List FrameRingEvent} {r : FrameRing}

theorem FrameRingHeld.init (h : slots.toNat ≤ 2147483648) (slotSz : UInt32) :
    FrameRingHeld slots slotSz [] (frameRingInit slots slotSz) := by
  refine ⟨frameRingInit_ok h slotSz, ?_, rfl, rfl⟩
  have hnone : (frameRingReadable (frameRingInit slots slotSz)).toNat = 0 := by
    show ((0 - 0) &&& (frameRingInit slots slotSz).ring.mask).toNat = 0
    rw [UInt32.sub_self, UInt32.zero_and]
    rfl
  have hempty : (frameRingInit slots slotSz).ring.contents (frameRingInit slots slotSz).frameAt = [] :=
    List.eq_nil_of_length_eq_zero (MaskRing.contents_length.trans hnone)
  rw [hempty]
  exact .empty

theorem FrameRingHeld.waiting (h : FrameRingHeld slots slotSz log r) :
    r.ring.contents r.frameAt = framesWaiting slotSz log := h.ledger.queue

/-- Taking the oldest `n` frames out. -/
theorem FrameRingHeld.ledger_pop {n : UInt32} (h : FrameRingHeld slots slotSz log r)
    (hn : n.toNat ≤ (frameRingReadable r).toNat) :
    MaskRing.Ledger (framesTaken slotSz log) (framesGone log + n.toNat)
      ((r.ring.pop n).contents r.frameAt) := by
  rw [h.ok.ring.contents_pop hn]
  exact h.ledger.take_front (by rw [MaskRing.contents_length]; exact hn)

theorem FrameRingHeld.depth (h : FrameRingHeld slots slotSz log r) :
    (frameRingReadable r).toNat = (framesWaiting slotSz log).length := by
  rw [← h.waiting, MaskRing.contents_length]
  rfl

/-- What a call does: the ring stays one, and returns what it should. -/
structure FrameCallKept (slots slotSz : UInt32) (log : List FrameRingEvent) (r : FrameRing)
    (i : FrameRingInput) : Prop where
  held : ∃ r', (frameRingMachine.step (some r) i).1 = some r' ∧
    FrameRingHeld slots slotSz (log ++ [frameRingMachine.event (some r) i]) r'
  exact : FrameCallExact slots slotSz log (frameRingMachine.event (some r) i)

/-- A call, by its result, the change of the ledger and that of the counters. -/
theorem FrameRingHeld.kept {r' : FrameRing} {i : FrameRingInput} {out : FrameRingOut}
    (h : FrameRingHeld slots slotSz log r) (hstep : frameRingStep (some r) i = (some r', out))
    (hok : r'.Ok slots slotSz)
    (hledger : MaskRing.Ledger
      (framesTaken slotSz log ++ frameTaken slotSz ⟨some r, i, out, some r'⟩)
      (framesGone log + frameGone ⟨some r, i, out, some r'⟩) (r'.ring.contents r'.frameAt))
    (hover : r'.overruns = r.overruns + if out = .pushed false then 1 else 0)
    (hunder : r'.underruns = r.underruns + if out = .popped none then 1 else 0)
    (hexact : FrameCallExact slots slotSz log ⟨some r, i, out, some r'⟩) :
    FrameCallKept slots slotSz log r i := by
  have hevent : frameRingMachine.event (some r) i = ⟨some r, i, out, some r'⟩ := by
    unfold Reactive.Machine.event
    rw [frameRingMachine_step, hstep]
  have hcount : ∀ p : FrameRingEvent → Bool, ∀ e, UInt64.ofNat ((log ++ [e]).countP p) =
      UInt64.ofNat (log.countP p) + if p e then 1 else 0 := by
    intro p e
    rw [List.countP_append, List.countP_singleton, UInt64.ofNat_add]
    split_ifs <;> rfl
  refine ⟨⟨r', by rw [frameRingMachine_step, hstep], ?_⟩, ?_⟩
  · rw [hevent]
    refine ⟨hok, ?_, ?_, ?_⟩
    · rw [framesTaken_concat, framesGone_concat]
      exact hledger
    · rw [hover, hcount, h.overruns]
      simp only [frameRefused, decide_eq_true_eq]
    · rw [hunder, hcount, h.underruns]
      simp only [frameMissed, decide_eq_true_eq]
  · rw [hevent]
    exact hexact

theorem FrameRingHeld.push (h : FrameRingHeld slots slotSz log r) (frame : CallerFrame) :
    FrameCallKept slots slotSz log r (.push frame) := by
  have hlt : (frameRingReadable r).toNat < r.ring.cap := h.ok.ring.readable_lt
  have hdepth := h.depth
  have hcap := h.ok.cap
  by_cases hfull : (frameRingReadable r).toNat + 1 = r.ring.cap
  · have hpush := frameRingPush_full frame h.ok hfull
    have hstep : frameRingStep (some r) (.push frame) =
        (some { r with overruns := r.overruns + 1 }, .pushed false) := by
      rw [frameRingStep_push, hpush]
    refine h.kept hstep
      ⟨h.ok.ring, h.ok.cap, h.ok.width, h.ok.buf, h.ok.len, h.ok.rows, h.ok.lens⟩ ?_ rfl ?_ ?_
    · show MaskRing.Ledger (_ ++ []) _ _
      rw [List.append_nil]
      exact h.ledger
    · exact (UInt64.add_zero _).symm
    · show FrameRingOut.pushed false = .pushed _
      rw [decide_eq_false (by omega)]
  · obtain ⟨r', hpush, hok, hcontents, hover, hunder⟩ :=
      frameRingPush_room frame h.ok (by omega)
    have hstep : frameRingStep (some r) (.push frame) = (some r', .pushed true) := by
      rw [frameRingStep_push, hpush]
    refine h.kept hstep hok ?_ ?_ ?_ ?_
    · rw [hcontents]
      exact h.ledger.put_back _
    · rw [hover]
      exact (UInt64.add_zero _).symm
    · rw [hunder]
      exact (UInt64.add_zero _).symm
    · show FrameRingOut.pushed true = .pushed _
      rw [decide_eq_true (by omega)]

theorem FrameRingHeld.pop (h : FrameRingHeld slots slotSz log r) : FrameCallKept slots slotSz log r .pop := by
  have hdepth := h.depth
  by_cases hempty : (frameRingReadable r).toNat = 0
  · have hpop := frameRingPop_empty h.ok hempty
    have hstep : frameRingStep (some r) .pop =
        (some { r with underruns := r.underruns + 1 }, .popped none) := by
      rw [frameRingStep_pop, hpop]
    refine h.kept hstep
      ⟨h.ok.ring, h.ok.cap, h.ok.width, h.ok.buf, h.ok.len, h.ok.rows, h.ok.lens⟩ ?_ ?_ rfl ?_
    · show MaskRing.Ledger (_ ++ []) _ _
      rw [List.append_nil]
      exact h.ledger
    · exact (UInt64.add_zero _).symm
    · show FrameRingOut.popped none = .popped _
      rw [List.eq_nil_of_length_eq_zero (hdepth.symm.trans hempty)]
      rfl
  · have hsome := Nat.pos_of_ne_zero hempty
    have hpop := frameRingPop_some h.ok hsome
    obtain ⟨frame, hframe⟩ : ∃ frame, (r.ring.contents r.frameAt).head? = some frame := by
      rw [← Option.isSome_iff_exists, List.isSome_head?, ← List.length_pos_iff, MaskRing.contents_length]
      exact hsome
    rw [hframe] at hpop
    have hstep : frameRingStep (some r) .pop =
        (some { r with ring := r.ring.pop 1 }, .popped (some frame)) := by
      rw [frameRingStep_pop, hpop]
    refine h.kept hstep (h.ok.pop 1) ?_ ?_ ?_ ?_
    · show MaskRing.Ledger (_ ++ []) _ _
      rw [List.append_nil]
      exact h.ledger_pop (n := 1) hsome
    · exact (UInt64.add_zero _).symm
    · exact (UInt64.add_zero _).symm
    · show FrameRingOut.popped (some frame) = .popped _
      rw [← h.waiting, hframe]

theorem FrameRingHeld.trim (h : FrameRingHeld slots slotSz log r) (high target : UInt32) :
    FrameCallKept slots slotSz log r (.trim high target) := by
  have hdepth := h.depth
  have hdrop := trimCount_toNat (frameRingReadable r) high target
  have hwaiting : ∀ e : FrameRingEvent, frameTaken slotSz e = [] →
      framesWaiting slotSz (log ++ [e]) = (framesWaiting slotSz log).drop (frameGone e) := by
    intro e he
    unfold framesWaiting
    rw [framesTaken_concat, framesGone_concat, he, List.append_nil, List.drop_drop]
  have hexact : ∀ e : FrameRingEvent, e.input = .trim high target →
      e.out = .trimmed (frameRingTrimCount (frameRingReadable r) high target) →
      FrameCallExact slots slotSz log e := by
    rintro ⟨pre, input, out, post⟩ rfl rfl
    refine ⟨_, rfl, hwaiting _ rfl, ?_⟩
    rw [hwaiting _ rfl, List.length_drop, ← hdepth]
    show _ - (frameRingTrimCount (frameRingReadable r) high target).toNat = _
    split_ifs at hdrop ⊢ with hmoves <;> omega
  by_cases hnone : frameRingTrimCount (frameRingReadable r) high target = 0
  · have hstep : frameRingStep (some r) (.trim high target) = (some r, .trimmed 0) := by
      rw [frameRingStep_trim]
      unfold frameRingTrim
      dsimp only
      rw [if_pos hnone]
    refine h.kept hstep h.ok ?_ ?_ ?_ (hexact _ rfl (by rw [hnone]))
    · show MaskRing.Ledger (_ ++ []) _ _
      rw [List.append_nil]
      exact h.ledger
    · exact (UInt64.add_zero _).symm
    · exact (UInt64.add_zero _).symm
  · have hstep : frameRingStep (some r) (.trim high target) =
        (some { r with ring := r.ring.pop (frameRingTrimCount (frameRingReadable r) high target) },
          .trimmed (frameRingTrimCount (frameRingReadable r) high target)) := by
      rw [frameRingStep_trim]
      unfold frameRingTrim
      dsimp only
      rw [if_neg hnone]
    refine h.kept hstep (h.ok.pop _) ?_ ?_ ?_ (hexact _ rfl rfl)
    · show MaskRing.Ledger (_ ++ []) _ _
      rw [List.append_nil]
      refine h.ledger_pop ?_
      rw [hdrop]
      split_ifs <;> omega
    · exact (UInt64.add_zero _).symm
    · exact (UInt64.add_zero _).symm

/-- One call keeps what is known of the ring, and returns what it should. -/
theorem FrameRingHeld.step (h : FrameRingHeld slots slotSz log r) (i : FrameRingInput) :
    FrameCallKept slots slotSz log r i := by
  cases i with
  | push frame => exact h.push frame
  | pop => exact h.pop
  | trim high target => exact h.trim high target

/-- What is known of the ring after any run. -/
theorem frameRing_run (slotSz : UInt32) (h : slots.toNat ≤ 2147483648) (is : List FrameRingInput) :
    ∃ r, frameRingMachine.run (some (frameRingInit slots slotSz)) is = some r ∧
      FrameRingHeld slots slotSz (frameRingMachine.trace (some (frameRingInit slots slotSz)) is) r := by
  induction is using List.reverseRecOn with
  | nil => exact ⟨_, rfl, .init h slotSz⟩
  | append_singleton is i ih =>
    obtain ⟨r, hrun, hheld⟩ := ih
    rw [frameRingMachine.run_concat, frameRingMachine.trace_concat, hrun]
    exact (hheld.step i).held

/-- Every call of a run returns what it should. -/
theorem frameRing_calls (h : slots.toNat ≤ 2147483648) {is : List FrameRingInput}
    {log : List FrameRingEvent} {e : FrameRingEvent}
    (he : frameRingMachine.StepOf (some (frameRingInit slots slotSz)) is log e) :
    FrameCallExact slots slotSz log e := by
  obtain ⟨post, he⟩ := he
  obtain ⟨is₁, i, is₂, rfl, rfl, rfl⟩ := frameRingMachine.trace_split he
  obtain ⟨r, hrun, hheld⟩ := frameRing_run slotSz h is₁
  rw [hrun]
  exact (hheld.step i).exact

/-- As long as the slots can be rounded up, every run is exact. -/
theorem frameRing_exact (h : slots.toNat ≤ 2147483648) (is : List FrameRingInput) :
    FrameRingExact slots slotSz is := by
  obtain ⟨k, -, -, hk, hle, -⟩ := MaskRing.nextPow2_spec h
  obtain ⟨r, hrun, hheld⟩ := frameRing_run slotSz h is
  have hdepth := hheld.depth
  have hledger := hheld.ledger.length
  have hgone := hheld.ledger.le
  have hlt : (frameRingReadable r).toNat < r.ring.cap := hheld.ok.ring.readable_lt
  rw [MaskRing.contents_length] at hledger
  refine ⟨⟨k, hk, hle⟩, ⟨r, hrun, hheld.overruns, hheld.underruns, hdepth, ?_, ?_⟩,
    fun log e he => frameRing_calls h he⟩
  · unfold frameRingReadable
    omega
  · rw [← hheld.ok.cap]
    omega

end Run

/-! ## Where it ends -/

/-- Without cells the first frame is written outside the allocations. -/
theorem frameRing_outside {slots : UInt32} (h : 2147483648 < slots.toNat) (slotSz : UInt32)
    (frame : CallerFrame) :
    frameRingMachine.run (some (frameRingInit slots slotSz)) [.push frame] = none := by
  have hinit : frameRingInit slots slotSz =
      { buf := [], len := [], slots := 0, ring := { mask := 4294967295 }, slotSz } := by
    unfold frameRingInit
    rw [MaskRing.nextPow2_over h]
    rfl
  have hpush : frameRingPush (frameRingInit slots slotSz) frame = none := by
    rw [hinit]
    unfold frameRingPush
    dsimp only
    rw [if_neg (by decide)]
    rfl
  show (frameRingStep (some (frameRingInit slots slotSz)) (.push frame)).1 = none
  rw [frameRingStep_push, hpush]

/-- Every run of calls is that of a queue just if the slots can be rounded up. -/
theorem frame_ring_fifo (slots slotSz : UInt32) :
    (∀ is, FrameRingExact slots slotSz is) ↔ slots.toNat ≤ 2147483648 := by
  constructor
  · intro h
    by_contra hover
    let frame : CallerFrame := ⟨[], 0, Nat.zero_le _⟩
    obtain ⟨r, hrun, -⟩ := (h [.push frame]).counts
    rw [frameRing_outside (Nat.lt_of_not_le hover)] at hrun
    cases hrun
  · intro h is
    exact frameRing_exact h is

/-- A quarter of a frame rate of -4 is the largest number of slots, and leaves no cell. -/
theorem frame_ring_unrounded :
    ¬ FrameRingExact 4294967295 2048 [.push ⟨[1, 2, 3], 3, by decide⟩] := by
  intro h
  obtain ⟨r, hrun, -⟩ := h.counts
  rw [frameRing_outside (by decide)] at hrun
  cases hrun

end Libreac
