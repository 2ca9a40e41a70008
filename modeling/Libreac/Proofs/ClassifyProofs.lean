import Libreac.Proofs.BindingProofs
import Libreac.Proofs.CorruptProofs
import Libreac.Proofs.GeometryProofs

/-!
# Proofs: the frames of a box

What a frame is that the classifier reports. The addressing is tested behind the early branch for
records, so a JOIN record is the one frame that is reported whoever it is addressed to.
-/

namespace Libreac

variable {frame : List UInt8} {our : Mac} {parsed : CtrlParsed} {ev : RxEvent}

/-- The call: it writes the caller's event where it answers 0, and nothing where it answers -1. -/
def classifyBoxFrameCall (frame : List UInt8) (our : Mac) (ev : RxEvent) : RxEvent × ℤ :=
  match classifyBoxFrame frame our with
  | none => (ev, -1)
  | some (_, reported) => (reported, 0)

/-- A whole frame of EtherType 0x8819. -/
def hasReacType (frame : List UInt8) : Bool :=
  50 ≤ frame.length ∧ byteAt frame 12 = 0x88 ∧ byteAt frame 13 = 0x19

/-- The source has the Roland OUI. -/
def isRolandFrame (frame : List UInt8) : Bool :=
  byteAt frame 6 = 0x00 ∧ byteAt frame 7 = 0x40 ∧ byteAt frame 8 = 0xab

/-- The type word of a FILLER. -/
def isFillerType (frame : List UInt8) : Bool := byteAt frame 16 = 0x00 ∧ byteAt frame 17 = 0x00

/-- A record container with one of the two tags a box joins with. -/
def isJoinRecord (frame : List UInt8) : Bool :=
  (ctrlParse frame).kind = .grant ∧ (ctrlParse frame).opcode = 0x00 ∧
    ((ctrlParse frame).dt1Tag = 0x0100 ∨ (ctrlParse frame).dt1Tag = 0x0302)

/-! ## The parser -/

theorem ctrlParse_whole (h : (ctrlParse frame).kind ≠ .none) : hasReacType frame = true :=
  decide_eq_true (ctrlParse_reac h)

theorem macAt_getElem (frame : List UInt8) (off : ℕ) {i : ℕ} (h : i < 6) :
    (macAt frame off)[i] = byteAt frame (off + i) := by
  simp [macAt]

/-! ## The classifier -/

/-- What a reported frame is, before its addressing is looked at. -/
structure BoxHeard (frame : List UInt8) (our : Mac) : Prop where
  reac : hasReacType frame = true
  roland : isRolandFrame frame = true
  src : macAt frame 6 ≠ our
  verified : isFillerType frame = true ∨ checksumVerify frame = true

/-- The classifier reports a JOIN record, the presence flood, or a frame that is for us. -/
theorem classifyBoxFrame_cases (h : classifyBoxFrame frame our = some (parsed, ev)) :
    BoxHeard frame our ∧
      (ev = .join ∧ isJoinRecord frame = true ∨
        ev = .bcastFiller ∧ macAt frame 0 = broadcastMac ∨
        macAt frame 0 = our ∧ macAt frame 0 ≠ broadcastMac) := by
  obtain ⟨hkind, hck⟩ := classifyBoxFrame_verified h
  obtain ⟨hdst, hbroadcast⟩ := ctrlParse_dst hkind
  have hsrc := ctrlParse_src hkind
  have hverified : isFillerType frame = true ∨ checksumVerify frame = true := by
    by_cases hfill : (ctrlParse frame).kind = .filler
    · exact .inl (decide_eq_true ((ctrlParse_filler_iff frame).mp hfill).2.2.2)
    · exact .inr (hck hfill)
  unfold classifyBoxFrame at h
  dsimp only at h
  rw [if_neg hkind] at h
  by_cases hroland : (ctrlParse frame).src[0] ≠ 0x00 ∨ (ctrlParse frame).src[1] ≠ 0x40 ∨
      (ctrlParse frame).src[2] ≠ 0xab
  · rw [if_pos hroland] at h
    cases h
  rw [if_neg hroland] at h
  by_cases hown : (ctrlParse frame).src = our
  · rw [if_pos hown] at h
    cases h
  rw [if_neg hown] at h
  refine ⟨⟨ctrlParse_whole hkind, ?_, ?_, hverified⟩, ?_⟩
  · simp only [hsrc, macAt_getElem, not_or, not_not] at hroland
    exact decide_eq_true hroland
  · rw [← hsrc]
    exact hown
  · by_cases hbad : (ctrlParse frame).kind ≠ .filler ∧ (!checksumVerify frame) = true
    · rw [if_pos hbad] at h
      cases h
    rw [if_neg hbad] at h
    by_cases hgrant : (ctrlParse frame).kind = .grant
    · rw [if_pos hgrant] at h
      obtain ⟨hjoin, heq⟩ := Option.ite_none_right_eq_some.mp h
      exact .inl ⟨(Prod.mk.inj (Option.some.inj heq)).2.symm, decide_eq_true ⟨hgrant, hjoin⟩⟩
    rw [if_neg hgrant] at h
    by_cases hbc : (ctrlParse frame).isBroadcast = true
    · rw [if_pos hbc] at h
      obtain ⟨-, heq⟩ := Option.ite_none_right_eq_some.mp h
      rw [hbroadcast, beq_iff_eq] at hbc
      exact .inr (.inl ⟨(Prod.mk.inj (Option.some.inj heq)).2.symm, hbc⟩)
    rw [if_neg hbc] at h
    -- Everything behind the addressing test is for us.
    obtain ⟨hto, -⟩ := Option.ite_none_left_eq_some.mp h
    rw [hbroadcast, beq_iff_eq] at hbc
    rw [hdst, not_not] at hto
    exact .inr (.inr ⟨hto, hbc⟩)

/-- A JOIN record of a box is reported. -/
theorem classifyBoxFrame_joins (h : BoxHeard frame our) (hjoin : isJoinRecord frame = true)
    (hck : checksumVerify frame = true) : ∃ parsed, classifyBoxFrame frame our = some (parsed, .join) := by
  obtain ⟨hkind, hop, htag⟩ := of_decide_eq_true hjoin
  have hsome : (ctrlParse frame).kind ≠ .none := by
    rw [hkind]
    decide
  have hsrc := ctrlParse_src hsome
  obtain ⟨hr0, hr1, hr2⟩ := of_decide_eq_true h.roland
  have hown := h.src
  refine ⟨ctrlParse frame, ?_⟩
  unfold classifyBoxFrame
  simp [hkind, hsrc, macAt_getElem, hr0, hr1, hr2, hown, hck, hop, htag]

/-- The frames the classifier reports are ours to hear, and where it reports none the event of the
caller is left alone. -/
structure OursToHear (frame : List UInt8) (our : Mac) (ev : RxEvent) : Prop where
  heard : (classifyBoxFrameCall frame our ev).2 = 0 → BoxHeard frame our
  addressed : (classifyBoxFrameCall frame our ev).2 = 0 →
    macAt frame 0 = our ∨ macAt frame 0 = broadcastMac
  unicast : (classifyBoxFrameCall frame our ev).2 = 0 →
    (classifyBoxFrameCall frame our ev).1 ∈ [RxEvent.bye, .heartbeat, .config, .unicast] →
    macAt frame 0 = our ∧ macAt frame 0 ≠ broadcastMac
  untouched : (classifyBoxFrameCall frame our ev).2 = -1 → (classifyBoxFrameCall frame our ev).1 = ev

/-- A box's JOIN record that is addressed to somebody else. -/
def isStrayJoin (frame : List UInt8) (our : Mac) : Bool :=
  hasReacType frame && isRolandFrame frame && macAt frame 6 != our && checksumVerify frame &&
    isJoinRecord frame && macAt frame 0 != our && macAt frame 0 != broadcastMac

/-- The classifier reports only what is ours to hear, except where a box joins another master. -/
theorem box_frames_ours_to_hear (frame : List UInt8) (our : Mac) (ev : RxEvent) :
    OursToHear frame our ev ↔ isStrayJoin frame our = false := by
  rw [← Bool.not_eq_true]
  constructor
  · intro h hstray
    simp only [isStrayJoin, Bool.and_eq_true, bne_iff_ne] at hstray
    obtain ⟨⟨⟨⟨⟨⟨hreac, hroland⟩, hsrc⟩, hck⟩, hjoin⟩, hus⟩, hbc⟩ := hstray
    obtain ⟨parsed, hclass⟩ := classifyBoxFrame_joins ⟨hreac, hroland, hsrc, .inr hck⟩ hjoin hck
    have hzero : (classifyBoxFrameCall frame our ev).2 = 0 := by rw [classifyBoxFrameCall, hclass]
    exact (h.addressed hzero).elim hus hbc
  · intro hno
    cases hclass : classifyBoxFrame frame our with
    | none =>
      have hcall : classifyBoxFrameCall frame our ev = (ev, -1) := by rw [classifyBoxFrameCall, hclass]
      have hnever : (classifyBoxFrameCall frame our ev).2 ≠ 0 := by
        rw [hcall]
        exact Int.neg_ne_zero.mpr one_ne_zero
      exact ⟨fun h => absurd h hnever, fun h => absurd h hnever, fun h => absurd h hnever,
        fun _ => by rw [hcall]⟩
    | some p =>
      obtain ⟨parsed, reported⟩ := p
      have hcall : classifyBoxFrameCall frame our ev = (reported, 0) := by
        rw [classifyBoxFrameCall, hclass]
      obtain ⟨heard, hcase⟩ := classifyBoxFrame_cases hclass
      have hck : isJoinRecord frame = true → checksumVerify frame = true := by
        intro hjoin
        obtain ⟨hkind, -, -⟩ := of_decide_eq_true hjoin
        refine (classifyBoxFrame_verified hclass).2 ?_
        rw [hkind]
        decide
      refine ⟨fun _ => heard, ?_, ?_, ?_⟩
      · intro _
        rcases hcase with ⟨-, hjoin⟩ | ⟨-, hbc⟩ | ⟨hus, -⟩
        · by_contra hneither
          rw [not_or] at hneither
          refine hno ?_
          simp only [isStrayJoin, Bool.and_eq_true, bne_iff_ne]
          exact ⟨⟨⟨⟨⟨⟨heard.reac, heard.roland⟩, heard.src⟩, hck hjoin⟩, hjoin⟩, hneither.1⟩, hneither.2⟩
        · exact .inr hbc
        · exact .inl hus
      · rw [hcall]
        intro _ hkind
        rcases hcase with ⟨rfl, -⟩ | ⟨rfl, -⟩ | hus
        · simp at hkind
        · simp at hkind
        · exact hus
      · rw [hcall]
        intro hminus
        cases hminus

/-- A box that joins the desk is reported to another master, as a JOIN. -/
theorem stray_join_reported : ¬ OursToHear (joinFrame stageBox) otherBox .unicast := by
  intro h
  have hours := h.addressed (by decide +kernel)
  revert hours
  decide +kernel

end Libreac
