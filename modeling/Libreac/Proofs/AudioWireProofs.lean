import Libreac.Proofs.HandshakeProofs
import Libreac.Proofs.PlayoutProofs

/-!
# Proofs: the audio of a desk and of a box

Both parties send frames of one shape, 50 bytes of head, a braided region and the end marker, and a receiver
that is locked on either reads back the samples the frame was built from. The rest is what holds of every
stream (`stream_is_heard`): whatever the wire loses, doubles or lets in between, the ring is filled with the
frames that arrive and nothing else.
-/

namespace Libreac

open Reactive (Event)

/-! ## Frames of one shape -/

section Region

variable {accept : RxAccept} {box : Mac} {n : ℕ} {head : List UInt8}

theorem cleanFrame_upstreamFrame {region : List UInt8} (hhead : head.length = 50) (hregion : region.length = 36 * n) :
    cleanFrame (upstreamFrame head region) = upstreamFrame head region := by
  have hlen : (upstreamFrame head region).length = 52 + 36 * n := by
    simp only [upstreamFrame, List.length_append, List.length_cons, List.length_nil]
    omega
  unfold cleanFrame frameCleanLen
  rw [hlen, if_neg (by omega), ← hlen, List.take_length]

/-- A frame of this shape carries what its region was written with. -/
theorem carries_region (heven : Even n) (hn : 2 ≤ n ∧ n ≤ 40) (hhead : head.length = 50)
    (htype : byteAt head 12 = 0x88 ∧ byteAt head 13 = 0x19) (hsrc : macAt head 6 = box)
    (hdst : accept = .downstream → macAt head 0 = broadcastMac ∧ n = 40) (planar : Planes) (nSrc ns : ℤ) :
    Carries accept box
      ⟨upstreamFrame head (braidEncode (List.replicate (36 * n) 0) n planar nSrc ns), n,
        sentSample planar nSrc ns⟩ := by
  have hregion : (braidEncode (List.replicate (36 * n) 0) n planar nSrc ns).length = 36 * n := by
    rw [length_braidEncode, List.length_replicate]
  have hread := unbraid_braidEncode heven planar nSrc ns [0xc2, 0xea]
  rw [show frameSamples * (3 * n) = 36 * n by unfold frameSamples; omega] at hread
  generalize braidEncode (List.replicate (36 * n) 0) n planar nSrc ns = region at hregion hread
  have hclean := @cleanFrame_upstreamFrame n head region hhead hregion
  have hlen : (upstreamFrame head region).length = 52 + 36 * n := by
    simp only [upstreamFrame, List.length_append, List.length_cons, List.length_nil]
    omega
  have hdecode : ∀ rate, feedDecode accept (reacModeFor rate) (upstreamFrame head region) =
      ((n : ℤ), some (planarBytes n 12 (sentSample planar nSrc ns), 12)) := by
    intro rate
    have hupstream := upstreamDecode_frame heven hn hhead htype hregion hread
    cases accept with
    | upstream =>
      unfold feedDecode
      dsimp only
      rw [hupstream, hlen, upstreamChannels_of_width heven hn]
      rfl
    | downstream =>
      obtain ⟨-, rfl⟩ := hdst rfl
      unfold feedDecode
      dsimp only
      rw [reacDecode_eq_upstreamDecode (reacModeFor_size rate) hlen, hupstream, (reacModeFor_size rate).1]
      rfl
  have hat : ∀ i < 50, byteAt (upstreamFrame head region) i = byteAt head i := by
    intro i hi
    rw [upstreamFrame, List.append_assoc, byteAt_append_left (by omega)]
  have hmac : ∀ off ≤ 40, macAt (upstreamFrame head region) off = macAt head off := by
    intro off hoff
    unfold macAt
    ext i hi
    rw [Vector.getElem_ofFn, Vector.getElem_ofFn, hat _ (by omega)]
  refine ⟨⟨?_, ?_, ?_, ?_⟩, hn.2, ?_⟩
  · refine decide_eq_true ⟨?_, ?_, ?_⟩
    · show 14 ≤ (upstreamFrame head region).length
      omega
    · exact (hat 12 (by omega)).trans htype.1
    · exact (hat 13 (by omega)).trans htype.2
  · exact (hmac 6 (by omega)).trans hsrc
  · intro hdown
    exact (hmac 0 (by omega)).trans (hdst hdown).1
  · show frameDecodes accept (cleanFrame (upstreamFrame head region)) = true
    rw [hclean, ← @feedFrame_isSome S24 accept _ id 48000]
    unfold feedFrame
    rw [hdecode]
    rfl
  · intro rate
    show feedDecode accept (reacModeFor rate) (cleanFrame (upstreamFrame head region)) = _
    rw [hclean]
    exact hdecode rate

/-- The counter of such a frame. -/
theorem frameCounter_upstreamFrame {region : List UInt8} {counter : UInt16} (hhead : head.length = 50)
    (hlow : byteAt head 14 = counter.toUInt8) (hhigh : byteAt head 15 = (counter >>> 8).toUInt8) :
    frameCounter (upstreamFrame head region) = counter := by
  have hat : ∀ i < 50, byteAt (upstreamFrame head region) i = byteAt head i := by
    intro i hi
    rw [upstreamFrame, List.append_assoc, byteAt_append_left (by omega)]
  unfold frameCounter
  rw [hat 15 (by omega), hat 14 (by omega), hlow, hhigh]
  exact u16be_eq_iff.mpr ⟨rfl, rfl⟩

end Region

/-! ## The frames of the desk -/

section Desk

variable {src : Mac} {q : Option QueuedFrame}

/-- The samples a slot sends: those the host queued, else silence. -/
def queuedSamples (q : Option QueuedFrame) : ℕ → ℕ → S24 :=
  match q with
  | some q => sentSample q.planar q.nch q.ns
  | none => sentSample none 0 0

/-- The head of a frame of the desk: the addresses, the EtherType and 36 bytes of counter and control. -/
def deskHead (src : Mac) (control : List UInt8) : List UInt8 :=
  broadcastMac.toList ++ src.toList ++ [0x88, 0x19] ++ control

section Head

variable {control : List UInt8}

theorem length_deskFront (src : Mac) : (broadcastMac.toList ++ src.toList ++ [0x88, 0x19]).length = 14 := by
  rw [List.length_append, List.length_append, broadcastMac.length_toList, src.length_toList]
  rfl

theorem length_deskHead (h : control.length = 36) : (deskHead src control).length = 50 := by
  rw [deskHead, List.length_append, length_deskFront, h]

theorem byteAt_deskHead_type (src : Mac) (control : List UInt8) :
    byteAt (deskHead src control) 12 = 0x88 ∧ byteAt (deskHead src control) 13 = 0x19 := by
  have hfront : (broadcastMac.toList ++ src.toList).length = 12 := by
    rw [List.length_append, broadcastMac.length_toList, src.length_toList]
  unfold deskHead
  rw [List.append_assoc]
  constructor
  · rw [byteAt_append_right (by omega), hfront]
    rfl
  · rw [byteAt_append_right (by omega), hfront]
    rfl

theorem byteAt_deskHead (src : Mac) (control : List UInt8) (i : ℕ) :
    byteAt (deskHead src control) (14 + i) = byteAt control i := by
  have hfront := length_deskFront src
  unfold deskHead
  rw [byteAt_append_right (by omega), hfront, Nat.add_sub_cancel_left]

theorem macAt_deskHead (src : Mac) (control : List UInt8) :
    macAt (deskHead src control) 0 = broadcastMac ∧ macAt (deskHead src control) 6 = src := by
  have hdst : broadcastMac.toList.length = 6 := broadcastMac.length_toList
  have hsrc : src.toList.length = 6 := src.length_toList
  unfold macAt deskHead
  rw [List.append_assoc, List.append_assoc]
  constructor
  · ext i hi
    rw [Vector.getElem_ofFn, Nat.zero_add, byteAt_append_left (by omega)]
    simp [byteAt, hi]
  · ext i hi
    rw [Vector.getElem_ofFn, byteAt_append_right (by omega), hdst, Nat.add_sub_cancel_left,
      byteAt_append_left (by omega)]
    simp [byteAt, hi]

/-- Writing into the control part. -/
theorem overwrite_deskHead {region bs : List UInt8} {off : ℕ} (h : off + bs.length ≤ control.length) :
    overwrite (upstreamFrame (deskHead src control) region) (14 + off) bs =
      upstreamFrame (deskHead src (overwrite control off bs)) region := by
  have happ := @overwrite_append (broadcastMac.toList ++ src.toList ++ [0x88, 0x19]) control
    (region ++ [0xc2, 0xea]) bs 14 off (length_deskFront src) h
  simpa only [upstreamFrame, deskHead, List.append_assoc] using happ

end Head

/-- A slot starts from a frame of the common shape. -/
theorem slotFrame_shape (src : Mac) (q : Option QueuedFrame) :
    ∃ control planar nSrc ns, control.length = 36 ∧ queuedSamples q = sentSample planar nSrc ns ∧
      slotFrame src q = upstreamFrame (deskHead src control)
        (braidEncode (List.replicate (36 * 40) 0) 40 planar nSrc ns) := by
  cases q with
  | some q =>
    refine ⟨[q.counter.toUInt8, (q.counter >>> 8).toUInt8] ++ List.replicate 34 0, q.planar, q.nch, q.ns, rfl, rfl,
      ?_⟩
    simp only [slotFrame, downstreamBuild, downstreamHead, upstreamFrame, deskHead, List.append_assoc,
      List.cons_append, List.nil_append]
    rfl
  | none =>
    refine ⟨List.replicate 36 0, none, 0, 0, rfl, rfl, ?_⟩
    have hsplit : List.replicate 1476 (0 : UInt8) = List.replicate 36 0 ++ List.replicate (36 * 40) 0 := by
      rw [List.replicate_append_replicate]
    have hregion : braidEncode (List.replicate (36 * 40) 0) 40 none 0 0 = List.replicate (36 * 40) 0 := rfl
    rw [hregion]
    simp only [slotFrame, silentFiller, upstreamFrame, deskHead, hsplit, List.append_assoc]

/-- Everything a slot lays over its frame falls into the control part. -/
theorem deskFrame_shape (src : Mac) (q : Option QueuedFrame) (st : Sent) :
    ∃ tail planar nSrc ns, tail.length = 34 ∧ queuedSamples q = sentSample planar nSrc ns ∧
      deskFrame src q st =
        upstreamFrame (deskHead src ([st.counter.toUInt8, (st.counter >>> 8).toUInt8] ++ tail))
          (braidEncode (List.replicate (36 * 40) 0) 40 planar nSrc ns) := by
  obtain ⟨control, planar, nSrc, ns, hcontrol, hsamples, hslot⟩ := slotFrame_shape src q
  have hcounter : overwrite control 0 [st.counter.toUInt8, (st.counter >>> 8).toUInt8] =
      [st.counter.toUInt8, (st.counter >>> 8).toUInt8] ++ control.drop 2 := rfl
  have hdrop : (control.drop 2).length = 34 := by
    rw [List.length_drop, hcontrol]
  have hcounted := @overwrite_deskHead src control (braidEncode (List.replicate (36 * 40) 0) 40 planar nSrc ns)
    [st.counter.toUInt8, (st.counter >>> 8).toUInt8] 0 (by simp [hcontrol])
  rw [hcounter] at hcounted
  unfold deskFrame
  rw [hslot, hcounted]
  cases st.ctrl with
  | none => exact ⟨control.drop 2, planar, nSrc, ns, hdrop, hsamples, rfl⟩
  | some t =>
    have ht : t.toList.length = 34 := t.length_toList
    refine ⟨t.toList, planar, nSrc, ns, ht, hsamples, ?_⟩
    dsimp only
    rw [@overwrite_deskHead src _ _ t.toList 2 (by simp [ht, hdrop])]
    congr 2
    have hrest : List.drop 34 (control.drop 2) = [] := List.drop_eq_nil_of_le (by omega)
    simpa [overwrite, ht] using hrest

/-- The frame of a slot carries the samples that were queued for it, whatever control block goes with it. -/
theorem deskFrame_sounds (src : Mac) (q : Option QueuedFrame) (st : Sent) :
    Carries .downstream src ⟨deskFrame src q st, 40, queuedSamples q⟩ ∧
      frameCounter (deskFrame src q st) = st.counter := by
  obtain ⟨tail, planar, nSrc, ns, htail, hsamples, hframe⟩ := deskFrame_shape src q st
  have hhead : (deskHead src ([st.counter.toUInt8, (st.counter >>> 8).toUInt8] ++ tail)).length = 50 :=
    length_deskHead (by simp [htail])
  have hmac := macAt_deskHead src ([st.counter.toUInt8, (st.counter >>> 8).toUInt8] ++ tail)
  rw [hframe, hsamples]
  exact ⟨carries_region (by decide) (by decide) hhead (byteAt_deskHead_type src _) hmac.2
      (fun _ => ⟨hmac.1, rfl⟩) planar nSrc ns,
    frameCounter_upstreamFrame hhead (byteAt_deskHead src _ 0) (byteAt_deskHead src _ 1)⟩

end Desk

/-! ## The frames of the box -/

section Box

variable {f : CtrlRow} {model : Option BoxRow} {dst src : Mac} {counter : UInt16} {nCh ns : ℤ}
  {planar : Planes} {frame : List UInt8}

/-- The samples of each channel that a row of the table lets through. -/
def CtrlRow.sounding (f : CtrlRow) (ns : ℤ) : ℤ := if f.audio then ns else 0

/-- A captured row has a width that can be sent. -/
theorem catalogueByWidth_ok (width : ℤ) : boxWidthOk (catalogueByWidth width).inCh = true := by
  have hrow : catalogueByWidth width ∈ boxCaptured := by
    unfold catalogueByWidth
    cases hfind : boxCaptured.find? (·.inCh = width) with
    | none => exact List.head_mem (by simp [boxCaptured])
    | some m => exact List.mem_of_find?_eq_some hfind
  have hall : ∀ m ∈ boxCaptured, boxWidthOk m.inCh = true := by decide
  exact hall _ hrow

/-- The width of a frame: a row that takes its width from the model takes it from the catalogue where there
is none. -/
def CtrlRow.width (f : CtrlRow) (model : Option BoxRow) (nCh : ℤ) : ℤ :=
  if f.len = .modelWidth ∧ model = none then (catalogueByWidth nCh).inCh else nCh

/-- A frame of the scaffold has the common shape. -/
theorem ctrlEmitAs_shape (hlen : f.len ≠ .downstream) (haudio : f.audio = true → f.len = .argWidth)
    (h : ctrlEmitAs f model dst src counter nCh none planar ns = some frame) :
    boxWidthOk (f.width model nCh) = true ∧ ∃ block : List UInt8, block.length = 32 ∧
      frame = upstreamFrame (hdrBytes dst src counter f.type0 f.type1 ++ block)
        (braidEncode (List.replicate (36 * (f.width model nCh).toNat) 0) (f.width model nCh).toNat planar
          (f.width model nCh) (f.sounding ns)) := by
  -- The length of the frame is that of its width, and only a row with audio looks at `nCh` again.
  obtain ⟨hwidth, hframe⟩ : boxWidthOk (f.width model nCh) = true ∧
      emitSteps f (model.getD (catalogueByWidth nCh)) dst src counter nCh none planar ns
        (boxFrameLen (f.width model nCh)) = frame := by
    unfold ctrlEmitAs at h
    dsimp only at h
    unfold CtrlRow.width
    have hok : f.len = .modelWidth ∨ f.len = .argWidth := by
      cases hf : f.len with
      | downstream => exact absurd hf hlen
      | modelWidth => exact .inl rfl
      | argWidth => exact .inr rfl
    split_ifs at h with hargs hmodel hident hwide hsome
    · have hnot : ¬ (f.len = .modelWidth ∧ model = none) := by
        rintro ⟨-, rfl⟩
        cases hsome
      rw [if_neg hnot]
      exact ⟨by simp_all, Option.some.inj h⟩
    · obtain rfl : model = none := by simpa using hsome
      rw [if_pos ⟨hwide, rfl⟩]
      exact ⟨catalogueByWidth_ok nCh, Option.some.inj h⟩
    · rw [if_neg fun hboth => hwide hboth.1]
      exact ⟨by simp_all, Option.some.inj h⟩
  have hsame : f.audio = true → f.width model nCh = nCh := by
    intro ha
    unfold CtrlRow.width
    rw [if_neg (by simp [haudio ha])]
  have hsource := length_source f (some (model.getD (catalogueByWidth nCh)))
  have hblock := length_closed (f := f) hsource
  have hbody : bodyBytes f nCh planar ns (boxFrameLen (f.width model nCh)) =
      braidEncode (List.replicate (36 * (f.width model nCh).toNat) 0) (f.width model nCh).toNat planar
          (f.width model nCh) (f.sounding ns) ++ [0xc2, 0xea] := by
    have hmute : bodyBytes f nCh planar ns (boxFrameLen (f.width model nCh)) =
        bodyBytes f (f.width model nCh) planar ns (boxFrameLen (f.width model nCh)) := by
      cases ha : f.audio with
      | true => rw [hsame ha]
      | false => simp [bodyBytes, placeAudio, ha]
    rw [hmute, bodyBytes_eq, Nat.mul_comm]
    unfold CtrlRow.sounding
    split_ifs <;> rfl
  have hsteps := emitSteps_eq f (model.getD (catalogueByWidth nCh)) dst src counter nCh none planar ns
    (show 52 ≤ boxFrameLen (f.width model nCh) by unfold boxFrameLen; omega)
    (fun ha => by rw [hsame ha]; unfold boxFrameLen; omega)
  refine ⟨hwidth, f.closed (f.filled (some (model.getD (catalogueByWidth nCh))) none), hblock, ?_⟩
  rw [← hframe, hsteps, hbody]
  simp only [upstreamFrame, List.append_assoc]

/-- A row of a box frame carries its audio, or silence. -/
theorem ctrlEmitAs_sounds {id : CtrlFrameId} (hid : id ≠ .headamp)
    (h : ctrlEmitAs (ctrlFrames id) model dst src counter nCh none planar ns = some frame) :
    Carries .upstream src ⟨frame, ((ctrlFrames id).width model nCh).toNat,
        sentSample planar ((ctrlFrames id).width model nCh) ((ctrlFrames id).sounding ns)⟩ ∧
      frameCounter frame = counter := by
  have hlen : (ctrlFrames id).len ≠ .downstream := by
    cases id <;> first | exact absurd rfl hid | exact CtrlLen.noConfusion
  have haudio : (ctrlFrames id).audio = true → (ctrlFrames id).len = .argWidth := by
    cases id <;> first | exact absurd rfl hid | exact fun _ => rfl | exact Bool.noConfusion
  obtain ⟨hwidth, block, hblock, rfl⟩ := ctrlEmitAs_shape hlen haudio h
  generalize (ctrlFrames id).width model nCh = w at hwidth
  have hok := of_decide_eq_true hwidth
  have heven : Even w.toNat := by
    rw [Nat.even_iff]
    omega
  have hhdr := length_hdrBytes dst src counter (ctrlFrames id).type0 (ctrlFrames id).type1
  have hhead : (hdrBytes dst src counter (ctrlFrames id).type0 (ctrlFrames id).type1 ++ block).length = 50 := by
    rw [List.length_append, hhdr, hblock]
  have hat : ∀ i < 18, byteAt (hdrBytes dst src counter (ctrlFrames id).type0 (ctrlFrames id).type1 ++ block) i =
      byteAt (hdrBytes dst src counter (ctrlFrames id).type0 (ctrlFrames id).type1) i :=
    fun i hi => byteAt_append_left (by omega)
  have hlow : (counter &&& 0xff).toUInt8 = counter.toUInt8 := by
    have hsame := hdrBytes_eq_ctrlHdr dst src counter
    simpa [hdrBytes, ctrlHdr] using hsame
  have htype : byteAt (hdrBytes dst src counter (ctrlFrames id).type0 (ctrlFrames id).type1) 12 = 0x88 ∧
      byteAt (hdrBytes dst src counter (ctrlFrames id).type0 (ctrlFrames id).type1) 13 = 0x19 ∧
      byteAt (hdrBytes dst src counter (ctrlFrames id).type0 (ctrlFrames id).type1) 14 = counter.toUInt8 ∧
      byteAt (hdrBytes dst src counter (ctrlFrames id).type0 (ctrlFrames id).type1) 15 =
        (counter >>> 8).toUInt8 := by
    simp [byteAt, hdrBytes, hlow]
  refine ⟨carries_region heven (by omega) hhead ?_ (macAt_hdrBytes ..) ?_ planar w _,
    frameCounter_upstreamFrame hhead ?_ ?_⟩
  · rw [hat 12 (by omega), hat 13 (by omega)]
    exact ⟨htype.1, htype.2.1⟩
  · rintro ⟨⟩
  · rw [hat 14 (by omega)]
    exact htype.2.2.1
  · rw [hat 15 (by omega)]
    exact htype.2.2.2

/-- The frames of a box that carry audio: its fillers and the records of its cold connect. -/
def SlaveBody.audible : SlaveBody → Bool
  | .floodFiller | .upstreamFiller => true
  | .record .cc0014 | .record .cc0013 | .record .cc0016 | .record .cc001a => true
  | _ => false

/-- The width of a frame of a box: a declaration or an identity has that of the row. -/
def BoxUnit.widthOf (u : BoxUnit) : SlaveBody → ℤ
  | .record .config | .record .identFirst | .record .identLast =>
    if u.model = none then (catalogueByWidth u.channels).inCh else u.channels
  | _ => u.channels

/-- The samples of a frame of a box. -/
def BoxUnit.samplesOf (u : BoxUnit) (planar : Planes) (body : SlaveBody) : ℕ → ℕ → S24 :=
  sentSample planar u.channels (if body.audible then 12 else 0)

/-- Without a time sample there is silence. -/
theorem sentSample_silent (planar planar' : Planes) (nSrc nSrc' : ℤ) :
    sentSample planar nSrc 0 = sentSample planar' nSrc' 0 := by
  funext ch s
  unfold sentSample
  rw [if_neg (by omega), if_neg (by omega)]

/-- Whatever a box builds is heard as the audio it was built from, or as silence. -/
theorem BoxUnit.frame_sounds {u : BoxUnit} {body : SlaveBody}
    (h : u.frame dst counter planar body = some frame) :
    Carries .upstream u.src ⟨frame, (u.widthOf body).toNat, u.samplesOf planar body⟩ ∧
      frameCounter frame = counter := by
  have hquiet : ∀ {id : CtrlFrameId} {model : Option BoxRow} {planar' : Planes} {ns : ℤ} {body : SlaveBody},
      id ≠ .headamp → (ctrlFrames id).audio = false → body.audible = false →
      (ctrlFrames id).width model u.channels = u.widthOf body →
      ctrlEmitAs (ctrlFrames id) model dst u.src counter u.channels none planar' ns = some frame →
      Carries .upstream u.src ⟨frame, (u.widthOf body).toNat, u.samplesOf planar body⟩ ∧
        frameCounter frame = counter := by
    intro id model planar' ns body hid haudio hmute hw hbuilt
    have hsounds := ctrlEmitAs_sounds hid hbuilt
    unfold CtrlRow.sounding at hsounds
    rw [haudio, hw, if_neg Bool.false_ne_true] at hsounds
    unfold BoxUnit.samplesOf
    rw [hmute, if_neg Bool.false_ne_true, sentSample_silent planar planar' u.channels (u.widthOf body)]
    exact hsounds
  have hblock : ∀ {b : BoxBlock} {planar : Planes} {ns : ℤ}, u.buildBlock b dst counter planar ns = some frame →
      ctrlEmitAs (ctrlFrames (boxBlockToCtrlFrame b)) u.model dst u.src counter u.channels none planar ns =
        some frame := fun hbuilt => (u.buildBlock_eq _).symm.trans hbuilt
  have hrow : ∀ id : CtrlFrameId, (ctrlFrames id).len = .modelWidth → (ctrlFrames id).width u.model u.channels =
      if u.model = none then (catalogueByWidth u.channels).inCh else u.channels := by
    intro id hlen
    simp only [CtrlRow.width, hlen, true_and]
  cases body with
  | floodFiller => exact @ctrlEmitAs_sounds _ _ _ _ _ _ _ _ .floodFiller nofun h
  | upstreamFiller => exact @ctrlEmitAs_sounds _ _ _ _ _ _ _ _ .upstreamFiller nofun h
  | downstream => cases h
  | record r =>
    cases r with
    | boxHb => exact @hquiet .boxHb _ _ _ (.record .boxHb) nofun rfl rfl rfl h
    | cc0014 => exact @ctrlEmitAs_sounds _ _ _ _ _ _ _ _ .coldconnect nofun (hblock h)
    | cc0013 => exact @ctrlEmitAs_sounds _ _ _ _ _ _ _ _ .coldconnect0013 nofun (hblock h)
    | cc0016 => exact @ctrlEmitAs_sounds _ _ _ _ _ _ _ _ .coldconnect0016 nofun (hblock h)
    | cc001a => exact @ctrlEmitAs_sounds _ _ _ _ _ _ _ _ .coldconnect001a nofun (hblock h)
    | config => exact @hquiet .configAnnounce _ _ _ (.record .config) nofun rfl rfl (hrow _ rfl) (hblock h)
    | identFirst => exact @hquiet .identFirst _ _ _ (.record .identFirst) nofun rfl rfl (hrow _ rfl) (hblock h)
    | identLast => exact @hquiet .identLast _ _ _ (.record .identLast) nofun rfl rfl (hrow _ rfl) (hblock h)
    | ccHead | configBoxMaster => cases h

end Box

/-! ## What is heard -/

section Played

variable {α : Type} [Zero α] {conv : S24 → α} {rate : ℤ} {accept : RxAccept} {box : Mac} {first : UInt16}
  {sent : ℕ → SentFrame} {is : List Arrival} {depth : UInt32} {ring : AudioRing α}

/-- What the frames that arrive carry on a channel. -/
def samplesSent (conv : S24 → α) (sent : ℕ → SentFrame) (c : ℕ) (is : List Arrival) : List α :=
  (is.filterMap Arrival.index?).flatMap fun k => (List.range 12).map fun s => conv ((sent k).samples c s)

/-- Every frame that arrives has the channel, and every read asks for it. -/
def AllCover (conv : S24 → α) (sent : ℕ → SentFrame) (c : ℕ) (is : List Arrival) : Prop :=
  ∀ i ∈ is.filterMap (Arrival.call conv sent), i.Covers c

/-- The receiver and its ring after a run: each frame of the stream that arrived was decoded into the ring,
and nothing else was; what is played of a channel was sent on it, in order and once, and it is how the
channel began if the ring was never full and never trimmed. -/
structure PlayedAsSent (conv : S24 → α) (mode : ReacMode) (s : Playout α) (sent : ℕ → SentFrame)
    (is : List Arrival) : Prop where
  plays : PlaysOut conv mode s sent none is
  order : ∀ c < 40, AllCover conv sent c is →
    ((ringLog ((playoutMachine conv mode).trace s (is.map (Arrival.input sent)))).flatMap
      (samplesPlayed c)).Sublist (samplesSent conv sent c is)
  whole : ∀ c < 40, AllCover conv sent c is →
    (∀ e ∈ ringLog ((playoutMachine conv mode).trace s (is.map (Arrival.input sent))), Lossless e) →
    (ringLog ((playoutMachine conv mode).trace s (is.map (Arrival.input sent)))).flatMap (samplesPlayed c) <+:
      samplesSent conv sent c is

omit [Zero α] in
/-- The block of a frame offers the frame's samples. -/
theorem samplesOffered_block {f : SentFrame} {c : ℕ} (h : c < f.width) :
    samplesOffered c (.write (f.block conv)) = (List.range 12).map fun s => conv (f.samples c s) := by
  unfold samplesOffered SentFrame.block
  refine List.map_congr_left fun s hs => ?_
  have hs : s < 12 := List.mem_range.mp hs
  have hn : (12 : UInt32).toNat = 12 := rfl
  dsimp only
  rw [hn, if_pos (by omega), show (c * 12 + s) / 12 = c by omega, show (c * 12 + s) % 12 = s by omega]

omit [Zero α] in
theorem samplesOffered_calls {c : ℕ} (hwidth : ∀ k, (sent k).width ≤ 40) (hcover : AllCover conv sent c is) :
    (is.filterMap (Arrival.call conv sent)).flatMap (samplesOffered c) = samplesSent conv sent c is := by
  induction is with
  | nil => rfl
  | cons i is ih =>
    cases i with
    | sent k now =>
      have hk : c < (UInt32.ofNat (sent k).width).toNat := hcover _ List.mem_cons_self
      have hw := hwidth k
      rw [UInt32.toNat_ofNat_of_lt' (by show _ < 4294967296; omega)] at hk
      have hrest := ih fun i hi => hcover i (List.mem_cons_of_mem _ hi)
      unfold samplesSent at hrest ⊢
      simp only [List.filterMap_cons, Arrival.call, Arrival.index?, List.flatMap_cons, hrest,
        samplesOffered_block hk]
    | other bytes now => exact ih hcover
    | read channels n => exact ih fun i hi => hcover i (List.mem_cons_of_mem _ hi)
    | trim keep => exact ih fun i hi => hcover i (List.mem_cons_of_mem _ hi)

/-- Any stream is played as it was sent. -/
theorem stream_is_heard (hs : Stream accept box first sent) (session epoch : UInt32)
    (hring : ringInit 40 depth = some ring) (hwire : OnWire box sent none 0 is) :
    PlayedAsSent conv (reacModeFor rate) ⟨{ rx := lockedRx accept box session epoch }, ring⟩ sent is := by
  have hplays : PlaysOut conv (reacModeFor rate) ⟨{ rx := lockedRx accept box session epoch }, ring⟩ sent none is :=
    Following.plays hs (.start session epoch) hwire
  have hwidth : ∀ k, (sent k).width ≤ 40 := fun k => (hs k).1.width
  refine ⟨hplays, ?_, ?_⟩
  · intro c hc hcover
    rw [hplays.log, ← samplesOffered_calls hwidth hcover]
    exact (heard_of_offered hring hc hcover).1
  · intro c hc hcover
    rw [hplays.log, ← samplesOffered_calls hwidth hcover]
    exact (heard_of_offered hring hc hcover).2

end Played

section Ends

variable {α : Type} [Zero α] {conv : S24 → α} {rate : ℤ} {first : UInt16} {is : List Arrival} {depth : UInt32}
  {ring : AudioRing α}

/-- A receiver locked on a box plays what the box was given to send, whatever kind of frame it travels in. -/
theorem box_is_heard (u : BoxUnit) {master : ℕ → Mac} {planar : ℕ → Planes} {body : ℕ → SlaveBody}
    {bytes : ℕ → List UInt8}
    (hbuilt : ∀ k, u.frame (master k) (first + UInt16.ofNat k) (planar k) (body k) = some (bytes k))
    (session epoch : UInt32) (hring : ringInit 40 depth = some ring)
    (hwire : OnWire u.src (fun k => ⟨bytes k, (u.widthOf (body k)).toNat, u.samplesOf (planar k) (body k)⟩)
      none 0 is) :
    PlayedAsSent conv (reacModeFor rate) ⟨{ rx := lockedRx .upstream u.src session epoch }, ring⟩
      (fun k => ⟨bytes k, (u.widthOf (body k)).toNat, u.samplesOf (planar k) (body k)⟩) is :=
  stream_is_heard (fun k => u.frame_sounds (hbuilt k)) session epoch hring hwire

/-- One sample on every channel, all the time. -/
def steadyPlanes : Planes := some fun _ => some fun _ => #v[1, 2, 3]

/-- Frame `k` of a box that sends it. -/
def steadyFrame (k : ℕ) : List UInt8 :=
  (plainUnit.frame deskMac (UInt16.ofNat k) steadyPlanes .upstreamFiller).getD []

/-- The first frame comes twice, the second never, and the ring is read before and after the third. -/
def steadyArrivals : List Arrival :=
  [.sent 0 0, .other (steadyFrame 0) 0, .read 16 12, .sent 2 0, .other [] 0, .read 16 20, .trim 0]

theorem box_is_heard_steady :
    ∃ ring : AudioRing ℕ, ringInit 40 32 = some ring ∧
      PlayedAsSent (fun v => (v.get ⟨0, Nat.zero_lt_succ 2⟩).toNat) (reacModeFor 48000)
        ⟨{ rx := lockedRx .upstream neighbourMac 0 0 }, ring⟩
        (fun k => ⟨steadyFrame k, 16, plainUnit.samplesOf steadyPlanes .upstreamFiller⟩) steadyArrivals := by
  have hbuilt : ∀ k, plainUnit.frame deskMac (0 + UInt16.ofNat k) steadyPlanes .upstreamFiller =
      some (steadyFrame k) := by
    intro k
    rw [UInt16.zero_add]
    rfl
  have hcopy : counterAhead (frameCounter (steadyFrame 0)) (frameCounter (steadyFrame 0)) = false :=
    counterAhead_self _
  have hring : ∃ ring : AudioRing ℕ, ringInit 40 32 = some ring := ⟨_, rfl⟩
  obtain ⟨ring, hring⟩ := hring
  refine ⟨ring, hring, box_is_heard plainUnit hbuilt 0 0 hring ?_⟩
  exact ⟨by simp, .inr ⟨⟨0, rfl, hcopy⟩, by decide, by simp, .inl ⟨.inl rfl, trivial⟩⟩⟩

/-- A receiver locked on a desk plays what the host queued, whatever control block the slots carry. -/
theorem desk_is_heard (src : Mac) {q : ℕ → Option QueuedFrame} {st : ℕ → Sent}
    (hcounter : ∀ k, (st k).counter = first + UInt16.ofNat k)
    (session epoch : UInt32) (hring : ringInit 40 depth = some ring)
    (hwire : OnWire src (fun k => ⟨deskFrame src (q k) (st k), 40, queuedSamples (q k)⟩) none 0 is) :
    PlayedAsSent conv (reacModeFor rate) ⟨{ rx := lockedRx .downstream src session epoch }, ring⟩
      (fun k => ⟨deskFrame src (q k) (st k), 40, queuedSamples (q k)⟩) is :=
  stream_is_heard (fun k => ⟨(deskFrame_sounds src (q k) (st k)).1,
    (deskFrame_sounds src (q k) (st k)).2.trans (hcounter k)⟩) session epoch hring hwire

/-- What the host queues for every slot. -/
def steadyQueued : Option QueuedFrame := some { counter := 0, planar := steadyPlanes, nch := 40, ns := 12 }

/-- The slots of the desk from just before its counter wraps; the second one announces the desk. -/
def announcedSlot (k : ℕ) : Sent where
  counter := 0xffff + UInt16.ofNat k
  slot := .plain (if k = 1 then .announce else .filler)
  ctrl := if k = 1 then some (stampBlockCksum (genCfea deskMac consoleCfgIdle 1)) else none

/-- The announced slot is heard like the others; the third is lost. -/
theorem desk_is_heard_announced :
    ∃ ring : AudioRing ℕ, ringInit 40 32 = some ring ∧
      PlayedAsSent (fun v => (v.get ⟨0, Nat.zero_lt_succ 2⟩).toNat) (reacModeFor 96000)
        ⟨{ rx := lockedRx .downstream deskMac 0 0 }, ring⟩
        (fun k => ⟨deskFrame deskMac steadyQueued (announcedSlot k), 40, queuedSamples steadyQueued⟩)
        [.sent 0 0, .sent 1 0, .read 40 20, .sent 3 0] ∧
      (announcedSlot 1).ctrl ≠ none ∧ queuedSamples steadyQueued 39 11 = #v[1, 2, 3] := by
  have hring : ∃ ring : AudioRing ℕ, ringInit 40 32 = some ring := ⟨_, rfl⟩
  obtain ⟨ring, hring⟩ := hring
  refine ⟨ring, hring, desk_is_heard deskMac (fun _ => rfl) 0 0 hring ?_, by simp [announcedSlot], rfl⟩
  exact ⟨by simp, by simp, by simp, trivial⟩

end Ends

end Libreac
