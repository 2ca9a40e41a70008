import Libreac.Disco
import Libreac.Pacer
import Libreac.Slave
import Libreac.Proofs.CtrlProofs
import Libreac.Proofs.SlaveFsmProofs

/-!
# Proofs: control frames whose checksum does not close

The master's classifier, the discovery and the two identity readers verify the block checksum before
they believe a control frame. The receive path of the slave does not: what a corrupt frame can do
there is what the state machine makes of its kind and source.
-/

namespace Libreac

open Reactive

/-- The type word is `cd ea`, `cf ea` or `ce ea`. -/
def isControlFrame (frame : List UInt8) : Bool :=
  (byteAt frame 16 = 0xcd ∨ byteAt frame 16 = 0xcf ∨ byteAt frame 16 = 0xce) ∧ byteAt frame 17 = 0xea

section Master

variable {frame : List UInt8}

theorem isControlFrame_kind (h : isControlFrame frame = true) : (ctrlParse frame).kind ≠ .filler := by
  intro hkind
  obtain ⟨-, -, -, -, h17⟩ := (ctrlParse_filler_iff frame).mp hkind
  simp [isControlFrame, h17] at h

theorem classifyBoxFrame_corrupt (hctrl : isControlFrame frame = true)
    (hbad : checksumVerify frame = false) (ourMac : Mac) : classifyBoxFrame frame ourMac = none := by
  cases h : classifyBoxFrame frame ourMac with
  | none => rfl
  | some pe =>
    have hverified := (classifyBoxFrame_verified h).2 (isControlFrame_kind hctrl)
    rw [hbad] at hverified
    cases hverified

theorem classifyCore_corrupt (hctrl : isControlFrame frame = true)
    (hbad : checksumVerify frame = false) (lock : Option PeerLock) (ourMac : Mac) :
    classifyCore lock frame ourMac = (lock, none) := by
  have hkind := isControlFrame_kind hctrl
  unfold classifyCore
  simp [hbad, hkind]

theorem identityReply_corrupt (hbad : checksumVerify frame = false) : identityReply frame = none := by
  unfold identityReply
  simp [hbad]

theorem identityFragment_corrupt (hbad : checksumVerify frame = false) (f : IdentityFrag) :
    identityFragment f frame = (f, none) := by
  have hfrag : isIdentityFragment frame = false := by simp [isIdentityFragment, hbad]
  unfold identityFragment
  simp [hfrag]

theorem checksumVerify_cleanFrame (frame : List UInt8) :
    checksumVerify (cleanFrame frame) = checksumVerify frame := by
  unfold checksumVerify
  rw [byteSum_congr fun i hi => byteAt_cleanFrame frame (by omega)]

theorem isControlFrame_cleanFrame (frame : List UInt8) :
    isControlFrame (cleanFrame frame) = isControlFrame frame := by
  unfold isControlFrame
  rw [byteAt_cleanFrame frame (by omega), byteAt_cleanFrame frame (by omega)]

/-- The whole receive path of the master is left as it was. -/
theorem rxIngest_corrupt (env : Env) (p : Pacer) (hctrl : isControlFrame frame = true)
    (hbad : checksumVerify frame = false) : rxIngest env p frame = (p, []) := by
  rw [← isControlFrame_cleanFrame] at hctrl
  rw [← checksumVerify_cleanFrame] at hbad
  have hid : rxIdentityPass p (cleanFrame frame) = p := by
    unfold rxIdentityPass
    simp [identityReply_corrupt hbad, identityFragment_corrupt hbad]
  unfold rxIngest
  simp only [hid, classifyBoxFrame_corrupt hctrl hbad]

end Master

/-! ## The state machine of the slave -/

section Slave

variable {fsm : ReacFsm} {p q : CtrlParsed}

/-- The master the state machine knows is the source of the frame. -/
def ReacFsm.knows (fsm : ReacFsm) (p : CtrlParsed) : Prop :=
  fsm.haveMaster = true ∧ fsm.masterMac = p.src

instance (fsm : ReacFsm) (p : CtrlParsed) : Decidable (fsm.knows p) :=
  inferInstanceAs (Decidable (_ ∧ _))

/-- The frame tells the state machine nothing: only a kind that a console alone emits can, and then
only where the state looks at it. -/
def ReacFsm.deafTo (fsm : ReacFsm) (p : CtrlParsed) : Prop :=
  isMasterFrame p.kind = true →
    (fsm.state = .floodAnnounce → fsm.knows p ∧ p.kind ≠ .grant) ∧
    (fsm.state = .coldconnect → fsm.knows p ∧ (p.kind = .grant → fsm.grantAck ≠ 0)) ∧
    (fsm.state = .established → (fsm.haveMaster = true → fsm.masterMac = p.src) ∧
      (p.kind = .masterHb ∨ p.kind = .masterAnnounce → fsm.linkCheck = linkcheckReload))

instance (fsm : ReacFsm) (p : CtrlParsed) : Decidable (fsm.deafTo p) :=
  inferInstanceAs (Decidable (_ → _))

theorem learnMaster_of_knows (h : fsm.knows p) : learnMaster fsm p = fsm := by
  obtain ⟨hm, hmac⟩ := h
  simp only [learnMaster, ← hm, ← hmac]

theorem heardMaster_filler (hq : q.kind = .filler) : heardMaster fsm q = fsm := by
  simp [heardMaster, isMasterFrame, hq]

/-- A flood keeps the master, and its handover starts a courtship with no frame sent yet. -/
theorem floodOne_kept (fsm : ReacFsm) :
    (floodOne fsm).1.haveMaster = fsm.haveMaster ∧ (floodOne fsm).1.masterMac = fsm.masterMac ∧
      ((floodOne fsm).1.state = fsm.state ∨ (floodOne fsm).1.coldconnectFrames = 0) := by
  unfold floodOne floodTick
  dsimp only [ReacFsm.out]
  split_ifs <;> simp [armColdconnect]

theorem courtOne_kept (fsm : ReacFsm) :
    (courtOne fsm).1.haveMaster = fsm.haveMaster ∧ (courtOne fsm).1.masterMac = fsm.masterMac := by
  unfold courtOne
  dsimp only
  split_ifs <;> exact ⟨rfl, rfl⟩

/-- An open acknowledgement window runs on, and a closed one stays closed. -/
theorem courtOne_grantAck (hm : fsm.haveMaster = true) :
    (fsm.grantAck = grantAckFrames → (courtOne fsm).1.grantAck = grantAckFrames - 1) ∧
      (fsm.grantAck = 0 → (courtOne fsm).1.grantAck = 0) := by
  constructor
  · intro h
    simp [courtOne, hm, h, grantAckFrames, coldconnectTick, ReacFsm.out]
  · intro h
    unfold courtOne
    simp only [hm, h, lt_irrefl, false_and, if_false, Bool.not_true, Bool.false_eq_true]
    split_ifs <;> simp [coldconnectTick, ReacFsm.out, h]

theorem stepFlood_deaf_iff (hs : fsm.state = .floodAnnounce) (hp : isMasterFrame p.kind = true)
    (hq : q.kind = .filler) :
    (stepFlood fsm (.rx p)).1 = (stepFlood fsm (.rx q)).1 ↔ fsm.knows p ∧ p.kind ≠ .grant := by
  have hfill : (stepFlood fsm (.rx q)).1 = (floodOne fsm).1 := by
    simp [stepFlood, heardMaster_filler hq, hq]
  have hheard : heardMaster fsm p = learnMaster fsm p := if_pos hp
  obtain ⟨hmaster, hmac, hcourt⟩ := floodOne_kept fsm
  rw [hfill]
  by_cases hg : p.kind = .grant
  · -- The grant hands over with the first unicast frame already sent.
    simp only [hg, ne_eq, not_true, and_false, iff_false]
    intro heq
    have hstate := congrArg ReacFsm.state heq
    have hsent := congrArg ReacFsm.coldconnectFrames heq
    simp only [stepFlood, hg, if_true, coldconnectTick, armColdconnect, ReacFsm.out] at hstate hsent
    rcases hcourt with h | h
    · rw [h, hs] at hstate
      cases hstate
    · rw [h] at hsent
      omega
  · have hstep : (stepFlood fsm (.rx p)).1 = (floodOne (learnMaster fsm p)).1 := by
      simp [stepFlood, hheard, hg]
    obtain ⟨hmaster', hmac', -⟩ := floodOne_kept (learnMaster fsm p)
    rw [hstep]
    constructor
    · intro heq
      rw [heq, hmaster] at hmaster'
      rw [heq, hmac] at hmac'
      exact ⟨⟨hmaster', hmac'⟩, hg⟩
    · rintro ⟨hknows, -⟩
      rw [learnMaster_of_knows hknows]

theorem courtOne_deaf_iff (hp : isMasterFrame p.kind = true) (hq : q.kind = .filler) :
    (courtOne (coldconnectHears fsm (.rx p))).1 = (courtOne (coldconnectHears fsm (.rx q))).1 ↔
      fsm.knows p ∧ (p.kind = .grant → fsm.grantAck ≠ 0) := by
  have hfill : coldconnectHears fsm (.rx q) = fsm := by
    simp [coldconnectHears, heardMaster_filler hq, hq]
  have hheard : heardMaster fsm p = learnMaster fsm p := if_pos hp
  have hlearn : (coldconnectHears fsm (.rx p)).haveMaster = true ∧
      (coldconnectHears fsm (.rx p)).masterMac = p.src := by
    simp only [coldconnectHears, hheard]
    split_ifs <;> exact ⟨rfl, rfl⟩
  obtain ⟨hmaster, hmac⟩ := courtOne_kept fsm
  obtain ⟨hmaster', hmac'⟩ := courtOne_kept (coldconnectHears fsm (.rx p))
  rw [hfill]
  constructor
  · intro heq
    rw [heq, hmaster, hlearn.1] at hmaster'
    rw [heq, hmac, hlearn.2] at hmac'
    refine ⟨⟨hmaster', hmac'⟩, ?_⟩
    -- A first grant opens the window, which a FILLER leaves closed.
    intro hg hack
    have hopen : (coldconnectHears fsm (.rx p)).grantAck = grantAckFrames := by
      simp [coldconnectHears, hheard, hg, learnMaster, hack]
    have h1 := (courtOne_grantAck hlearn.1).1 hopen
    rw [heq, (courtOne_grantAck hmaster').2 hack] at h1
    exact absurd h1 (by decide)
  · rintro ⟨hknows, hack⟩
    have hsame : coldconnectHears fsm (.rx p) = fsm := by
      simp only [coldconnectHears, hheard, learnMaster_of_knows hknows]
      rw [if_neg fun h => hack h.1 h.2]
    rw [hsame]

theorem establishedRx_deaf_iff (hs : fsm.state = .established) (hp : isMasterFrame p.kind = true)
    (hq : q.kind = .filler) :
    (establishedRx fsm p).1 = (establishedRx fsm q).1 ↔
      (fsm.haveMaster = true → fsm.masterMac = p.src) ∧
        (p.kind = .masterHb ∨ p.kind = .masterAnnounce → fsm.linkCheck = linkcheckReload) := by
  have hfill : (establishedRx fsm q).1 = (audioOne fsm).1 := by
    simp [establishedRx, isMasterFrame, hq]
  rw [hfill, audioOne_fst]
  by_cases hdrop : fsm.haveMaster = true ∧ p.src ≠ fsm.masterMac
  · have hstep : (establishedRx fsm p).1.state = .drop := by
      simp [establishedRx, hdrop, hp, ReacFsm.out]
    constructor
    · intro heq
      rw [heq] at hstep
      simp [hs] at hstep
    · rintro ⟨hsame, -⟩
      exact absurd (hsame hdrop.1).symm hdrop.2
  · have hsame : fsm.haveMaster = true → fsm.masterMac = p.src := by
      intro hm
      by_contra hne
      exact hdrop ⟨hm, fun h => hne h.symm⟩
    have hnot : ¬(fsm.haveMaster = true ∧ p.src ≠ fsm.masterMac ∧ isMasterFrame p.kind = true) :=
      fun h => hdrop ⟨h.1, h.2.1⟩
    unfold establishedRx
    rw [if_neg hnot]
    by_cases halive : p.kind = .masterHb ∨ p.kind = .masterAnnounce
    · rw [if_pos halive]
      constructor
      · intro heq
        rw [audioOne_fst] at heq
        exact ⟨hsame, fun _ => (congrArg ReacFsm.linkCheck heq).symm⟩
      · rintro ⟨-, hlink⟩
        have hset : { fsm with linkCheck := linkcheckReload } = fsm := by rw [← hlink halive]
        rw [hset, audioOne_fst]
    · rw [if_neg halive, audioOne_fst]
      simp only [true_iff]
      exact ⟨hsame, fun h => absurd h halive⟩

/-- A frame moves the state machine as a FILLER does exactly where it is deaf to it. -/
theorem reacFsmStep_deaf_iff (fsm : ReacFsm) (hq : q.kind = .filler) :
    (reacFsmStep fsm (.rx p)).1 = (reacFsmStep fsm (.rx q)).1 ↔ fsm.deafTo p := by
  by_cases hp : isMasterFrame p.kind = true
  · have hdeaf : fsm.deafTo p ↔ _ := ⟨fun h => h hp, fun h _ => h⟩
    rw [hdeaf]
    cases hs : fsm.state with
    | floodAnnounce =>
      have h := stepFlood_deaf_iff hs hp hq
      simpa [reacFsmStep, hs] using h
    | coldconnect =>
      have h := @courtOne_deaf_iff fsm _ _ hp hq
      simpa [reacFsmStep, hs] using h
    | established =>
      have h := establishedRx_deaf_iff hs hp hq
      simpa [reacFsmStep, hs, stepEstablished] using h
    | phyDown | backoff | txMute | drop => simp [reacFsmStep, hs, stepTxMute]
  · have hkind : isMasterFrame p.kind = false := by simpa using hp
    have hdeaf : fsm.deafTo p := fun h => absurd h hp
    have hgrant : p.kind ≠ .grant := by
      intro h
      simp [isMasterFrame, h] at hkind
    have halive : ¬(p.kind = .masterHb ∨ p.kind = .masterAnnounce) := by
      rintro (h | h) <;> simp [isMasterFrame, h] at hkind
    simp only [hdeaf, iff_true]
    have hheard : heardMaster fsm p = fsm := if_neg hp
    have hfill : isMasterFrame .filler = false := rfl
    cases hs : fsm.state <;>
      simp [reacFsmStep, hs, stepFlood, coldconnectHears, stepTxMute, stepEstablished, establishedRx,
        hheard, heardMaster_filler hq, hgrant, halive, hkind, hfill, hq]

end Slave

/-! ## Both roles -/

/-- The frame is evidence of nothing: no event, no sighting, no latched lock, no identity and no step
of the master's receive path, and the slave's state machine is where a FILLER of the same source
would have taken it. -/
structure EvidenceOfNothing (s : Slave) (frame : List UInt8) : Prop where
  classifier : ∀ ourMac, classifyBoxFrame frame ourMac = none
  discovery : ∀ lock ourMac, classifyCore lock frame ourMac = (lock, none)
  reply : identityReply frame = none
  fragment : ∀ f, identityFragment f frame = (f, none)
  ingest : ∀ env p, rxIngest env p frame = (p, [])
  slave : (slaveStep s (.rx (ctrlParse frame))).1.fsm =
    (slaveStep s (.rx { ctrlParse frame with kind := .filler })).1.fsm

theorem corrupt_inert_iff (s : Slave) (frame : List UInt8) (hctrl : isControlFrame frame = true)
    (hbad : checksumVerify frame = false) :
    EvidenceOfNothing s frame ↔ s.fsm.deafTo (ctrlParse frame) := by
  have hslave := reacFsmStep_deaf_iff (p := ctrlParse frame)
    (q := { ctrlParse frame with kind := .filler }) s.fsm rfl
  constructor
  · intro h
    exact hslave.mp h.slave
  · intro hdeaf
    exact
      { classifier := classifyBoxFrame_corrupt hctrl hbad
        discovery := classifyCore_corrupt hctrl hbad
        reply := identityReply_corrupt hbad
        fragment := identityFragment_corrupt hbad
        ingest := fun env p => rxIngest_corrupt env p hctrl hbad
        slave := hslave.mpr hdeaf }

/-- A slave whose link has just come up. -/
def floodingSlave : Slave := (slaveStep { fsm := reacFsmInit } .phyUp).1

/-- A master announce of the console with one bit of its block flipped. -/
def corruptAnnounce : List UInt8 :=
  broadcastMac.toList ++ consoleMac.toList ++ [0x88, 0x19, 0x00, 0x00, 0xcf, 0xea, 0x01] ++
    List.replicate 31 0x00 ++ [0xc2, 0xea]

theorem corruptAnnounce_bad :
    isControlFrame corruptAnnounce = true ∧ checksumVerify corruptAnnounce = false := by
  decide +kernel

theorem corrupt_inert_iff_announce :
    isControlFrame corruptAnnounce = true ∧ checksumVerify corruptAnnounce = false ∧
      (EvidenceOfNothing floodingSlave corruptAnnounce ↔
        floodingSlave.fsm.deafTo (ctrlParse corruptAnnounce)) :=
  ⟨corruptAnnounce_bad.1, corruptAnnounce_bad.2,
    corrupt_inert_iff floodingSlave corruptAnnounce corruptAnnounce_bad.1 corruptAnnounce_bad.2⟩

/-- The slave learns its master from a frame whose checksum does not close. -/
theorem corrupt_announce_learned :
    isControlFrame corruptAnnounce = true ∧ checksumVerify corruptAnnounce = false ∧
      (slaveStep floodingSlave (.rx (ctrlParse corruptAnnounce))).1.fsm.haveMaster = true ∧
      ¬ EvidenceOfNothing floodingSlave corruptAnnounce := by
  have hlearned : (slaveStep floodingSlave (.rx (ctrlParse corruptAnnounce))).1.fsm.haveMaster = true := by
    decide +kernel
  refine ⟨corruptAnnounce_bad.1, corruptAnnounce_bad.2, hlearned, ?_⟩
  intro h
  have hfiller : (slaveStep floodingSlave
      (.rx { ctrlParse corruptAnnounce with kind := .filler })).1.fsm.haveMaster = false := by
    decide +kernel
  rw [h.slave, hfiller] at hlearned
  cases hlearned

end Libreac
