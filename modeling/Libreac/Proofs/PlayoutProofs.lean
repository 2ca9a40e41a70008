import Libreac.Playout
import Libreac.Proofs.AudioRingProofs
import Libreac.Proofs.BraidProofs
import Libreac.Proofs.MirrorProofs

/-!
# Proofs: what is sent is what is heard

A stream of frames with their samples goes over a wire that loses and doubles frames, among strangers and
forged frames, into a receiver whose ring is read and trimmed at any time. The ring sees one write for each
frame of the stream that arrives, with exactly its samples (`Following.plays`), so what is played of a channel
was sent on it, in order and once (`HeardSoFar`).
-/

namespace Libreac

open Reactive (Event)

/-! ## What a reader of the ring hears -/

section Heard

variable {α : Type}

/-- The samples a call offers to channel `c`. -/
def samplesOffered (c : ℕ) : AudioRingInput α → List α
  | .write block => (List.range block.n.toNat).map fun s => block.planar (c * block.n.toNat + s)
  | _ => []

/-- The samples of channel `c` that a call put in. -/
def samplesPut (c : ℕ) (e : AudioRingEvent α) : List α :=
  match e.input, e.out with
  | .write block, .wrote w => (List.range w.toNat).map fun s => block.planar (c * block.n.toNat + s)
  | _, _ => []

/-- The samples of channel `c` that a call played, without the silence it was filled up with. -/
def samplesPlayed (c : ℕ) (e : AudioRingEvent α) : List α :=
  match e.out with
  | .read rows real => (rows.getD c []).take real.toNat
  | _ => []

/-- The call fills channel `c`, or reads it. -/
def AudioRingInput.Covers (c : ℕ) : AudioRingInput α → Prop
  | .write block => c < block.channels.toNat
  | .read channels _ => c < channels.toNat
  | .trim _ => True

/-- The call loses nothing: it is not a trim, and no write that found the ring full. -/
def Lossless (e : AudioRingEvent α) : Prop :=
  (∀ keep, e.input ≠ .trim keep) ∧ samplesRefused e = 0

variable [Zero α]

/-- What was heard of channel `c` after the calls of `log`. -/
structure HeardSoFar (c : ℕ) (log : List (AudioRingEvent α)) : Prop where
  wide : ∀ col ∈ columnsTaken log, c < col.width
  put : (columnsTaken log).map (·.sample c) = log.flatMap (samplesPut c)
  played : (log.flatMap (samplesPlayed c)).Sublist
    (((columnsTaken log).take (columnsGone log)).map (·.sample c))
  whole : (∀ e ∈ log, ∀ keep, e.input ≠ .trim keep) →
    log.flatMap (samplesPlayed c) = ((columnsTaken log).take (columnsGone log)).map (·.sample c)

theorem HeardSoFar.nil (c : ℕ) : HeardSoFar c ([] : List (AudioRingEvent α)) :=
  ⟨nofun, rfl, .refl _, fun _ => rfl⟩

/-- A column that stays wide enough keeps its sample. -/
theorem sample_narrow {col : AudioColumn α} {width c : ℕ} (hcol : c < col.width) (hwidth : c < width) :
    (col.narrow width).sample c = col.sample c := by
  have hnarrow : c < (col.narrow width).width := lt_min hcol hwidth
  unfold AudioColumn.sample
  rw [if_pos hnarrow, if_pos hcol]
  rfl

section Step

variable {channels capacity : UInt32} {c : ℕ} {log : List (AudioRingEvent α)} {pre post : AudioRing α}

omit [Zero α] in
theorem flatMap_concat (f : AudioRingEvent α → List α) (log : List (AudioRingEvent α)) (e : AudioRingEvent α) :
    (log ++ [e]).flatMap f = log.flatMap f ++ f e := by
  rw [List.flatMap_append, List.flatMap_singleton]

theorem HeardSoFar.write (h : HeardSoFar c log) (hle : columnsGone log ≤ (columnsTaken log).length)
    {block : CallerBlock α} (hwidth : c < block.channels.toNat) (w : UInt32) :
    HeardSoFar c (log ++ [⟨pre, .write block, .wrote w, post⟩]) := by
  have htaken : columnsTaken (log ++ [⟨pre, .write block, .wrote w, post⟩]) =
      (columnsTaken log).map (AudioColumn.narrow block.channels.toNat) ++ block.columns w.toNat :=
    columnsTaken_concat log _
  have hgone : columnsGone (log ++ [⟨pre, .write block, .wrote w, post⟩]) = columnsGone log :=
    columnsGone_concat log _
  have hkept : ((columnsTaken log).map (AudioColumn.narrow block.channels.toNat)).map (·.sample c) =
      (columnsTaken log).map (·.sample c) := by
    rw [List.map_map]
    exact List.map_congr_left fun col hcol => sample_narrow (h.wide col hcol) hwidth
  have hfront : ((columnsTaken (log ++ [⟨pre, .write block, .wrote w, post⟩])).take (columnsGone log)).map
      (·.sample c) = ((columnsTaken log).take (columnsGone log)).map (·.sample c) := by
    rw [htaken, List.take_append_of_le_length (by rw [List.length_map]; exact hle), List.map_take, hkept,
      List.map_take]
  have hplayed := (flatMap_concat (samplesPlayed c) log ⟨pre, .write block, .wrote w, post⟩).trans
    (List.append_nil _)
  refine ⟨?_, ?_, ?_, ?_⟩
  · intro col hcol
    rw [htaken] at hcol
    rcases List.mem_append.mp hcol with hold | hnew
    · obtain ⟨old, hmem, rfl⟩ := List.mem_map.mp hold
      exact lt_min (h.wide old hmem) hwidth
    · obtain ⟨s, -, rfl⟩ := List.mem_map.mp hnew
      exact hwidth
  · rw [flatMap_concat, htaken, List.map_append, hkept, h.put]
    unfold CallerBlock.columns
    rw [List.map_map]
    exact congrArg _ (List.map_congr_left fun s _ => if_pos hwidth)
  · rw [hplayed, hgone, hfront]
    exact h.played
  · intro htrim
    rw [hplayed, hgone, hfront]
    exact h.whole fun e he => htrim e (List.mem_append_left _ he)

/-- A read plays the oldest columns that wait. -/
theorem samplesPlayed_read {nch n : UInt32} {out : AudioRingOut α} (hc : c < channels.toNat) (hnch : c < nch.toNat)
    (hexact : AudioCallExact channels capacity log ⟨pre, .read nch n, out, post⟩) :
    ∃ rows real, out = .read rows real ∧
      samplesPlayed c ⟨pre, .read nch n, .read rows real, post⟩ =
        ((columnsWaiting log).take real.toNat).map (·.sample c) := by
  obtain ⟨rows, real, rfl, hreal, hrows, hrow⟩ := hexact
  have hin : c < rows.length := by omega
  have hcut : (columnsWaiting log).take n.toNat = (columnsWaiting log).take real.toNat := by
    rw [hreal, List.take_eq_take_iff]
    omega
  refine ⟨rows, real, rfl, ?_⟩
  show (rows.getD c []).take real.toNat = _
  rw [List.getD_eq_getElem _ _ hin, hrow c hin, hcut]
  refine List.take_left' ?_
  rw [List.length_map, List.length_take]
  omega

theorem HeardSoFar.read (h : HeardSoFar c log) {nch n : UInt32} {rows : List (List α)} {real : UInt32}
    (hplayed : samplesPlayed c ⟨pre, .read nch n, .read rows real, post⟩ =
      ((columnsWaiting log).take real.toNat).map (·.sample c)) :
    HeardSoFar c (log ++ [⟨pre, .read nch n, .read rows real, post⟩]) := by
  have htaken : columnsTaken (log ++ [⟨pre, .read nch n, .read rows real, post⟩]) = columnsTaken log :=
    columnsTaken_concat log _
  have hgone : columnsGone (log ++ [⟨pre, .read nch n, .read rows real, post⟩]) =
      columnsGone log + real.toNat := columnsGone_concat log _
  have hfront : ((columnsTaken log).take (columnsGone log + real.toNat)).map (·.sample c) =
      ((columnsTaken log).take (columnsGone log)).map (·.sample c) ++
        ((columnsWaiting log).take real.toNat).map (·.sample c) := by
    rw [List.take_add, List.map_append]
    rfl
  refine ⟨?_, ?_, ?_, ?_⟩
  · rw [htaken]
    exact h.wide
  · rw [flatMap_concat, htaken, h.put]
    exact (List.append_nil _).symm
  · rw [flatMap_concat, htaken, hgone, hfront, hplayed]
    exact h.played.append (.refl _)
  · intro htrim
    rw [flatMap_concat, htaken, hgone, hfront, hplayed, h.whole fun e he => htrim e (List.mem_append_left _ he)]

theorem HeardSoFar.trim (h : HeardSoFar c log) (keep drop : UInt32) :
    HeardSoFar c (log ++ [⟨pre, .trim keep, .trimmed drop, post⟩]) := by
  have htaken : columnsTaken (log ++ [⟨pre, .trim keep, .trimmed drop, post⟩]) = columnsTaken log :=
    columnsTaken_concat log _
  have hgone : columnsGone (log ++ [⟨pre, .trim keep, .trimmed drop, post⟩]) =
      columnsGone log + drop.toNat := columnsGone_concat log _
  refine ⟨?_, ?_, ?_, ?_⟩
  · rw [htaken]
    exact h.wide
  · rw [flatMap_concat, htaken, h.put]
    exact (List.append_nil _).symm
  · rw [flatMap_concat, htaken, hgone, List.take_add, List.map_append]
    simpa only [samplesPlayed, List.append_nil] using h.played.trans (List.sublist_append_left _ _)
  · intro htrim
    exact absurd rfl (htrim _ (List.mem_append_right _ (List.mem_singleton_self _)) keep)

theorem HeardSoFar.step {e : AudioRingEvent α} (h : HeardSoFar c log)
    (hle : columnsGone log ≤ (columnsTaken log).length) (hexact : AudioCallExact channels capacity log e)
    (hc : c < channels.toNat) (hcovers : e.input.Covers c) : HeardSoFar c (log ++ [e]) := by
  obtain ⟨pre, input, out, post⟩ := e
  cases input with
  | write block =>
    obtain ⟨w, rfl, -⟩ := hexact
    exact h.write hle hcovers w
  | read nch n =>
    obtain ⟨rows, real, rfl, hplayed⟩ := samplesPlayed_read hc hcovers hexact
    exact h.read hplayed
  | trim keep =>
    obtain ⟨drop, rfl, -⟩ := hexact
    exact h.trim keep drop

end Step

/-- What was heard after any run of calls. -/
theorem HeardSoFar.run {channels capacityFrames : UInt32} {r : AudioRing α}
    (hr : ringInit channels capacityFrames = some r) {c : ℕ} (hc : c < channels.toNat)
    {is : List (AudioRingInput α)} (hcovers : ∀ i ∈ is, i.Covers c) :
    HeardSoFar c (audioRingMachine.trace r is) := by
  have hinit := AudioRingHeld.init hr
  induction is using List.reverseRecOn with
  | nil => exact .nil c
  | append_singleton is i ih =>
    have hheld := hinit.run is
    rw [audioRingMachine.trace_concat]
    refine (ih fun j hj => hcovers j (List.mem_append_left _ hj)).step ?_ (hheld.step i).exact hc ?_
    · have hgone := hheld.ledger.le
      rw [List.length_map] at hgone
      exact hgone
    · exact hcovers i (List.mem_append_right _ (List.mem_singleton_self _))

/-- What is accepted is a part of what was offered. -/
theorem samplesPut_sublist {channels capacity : UInt32} {log : List (AudioRingEvent α)} {e : AudioRingEvent α}
    (c : ℕ) (hexact : AudioCallExact channels capacity log e) :
    (samplesPut c e).Sublist (samplesOffered c e.input) ∧
      (samplesRefused e = 0 → samplesPut c e = samplesOffered c e.input) := by
  obtain ⟨pre, input, out, post⟩ := e
  cases input with
  | write block =>
    obtain ⟨w, rfl, hw⟩ := hexact
    refine ⟨?_, ?_⟩
    · refine List.Sublist.map _ (List.range_sublist.mpr ?_)
      omega
    · intro hrefused
      have hall : block.n.toNat - w.toNat = 0 := hrefused
      have heq : w.toNat = block.n.toNat := by omega
      simp only [samplesPut, samplesOffered, heq]
  | read nch n =>
    obtain ⟨rows, real, rfl, -⟩ := hexact
    exact ⟨.refl _, fun _ => rfl⟩
  | trim keep =>
    obtain ⟨drop, rfl, -⟩ := hexact
    exact ⟨.refl _, fun _ => rfl⟩

/-- What was heard of a channel was offered on it, in order and once; if nothing was lost, it is how the
channel began. -/
theorem heard_of_offered {channels capacityFrames : UInt32} {r : AudioRing α}
    (hr : ringInit channels capacityFrames = some r) {c : ℕ} (hc : c < channels.toNat)
    {is : List (AudioRingInput α)} (hcovers : ∀ i ∈ is, i.Covers c) :
    let log := audioRingMachine.trace r is
    (log.flatMap (samplesPlayed c)).Sublist (is.flatMap (samplesOffered c)) ∧
      ((∀ e ∈ log, Lossless e) → log.flatMap (samplesPlayed c) <+: is.flatMap (samplesOffered c)) := by
  intro log
  have hheard : HeardSoFar c log := .run hr hc hcovers
  have hput : (log.flatMap (samplesPut c)).Sublist (is.flatMap (samplesOffered c)) ∧
      ((∀ e ∈ log, samplesRefused e = 0) → log.flatMap (samplesPut c) = is.flatMap (samplesOffered c)) := by
    have hinit := AudioRingHeld.init hr
    clear hheard hcovers
    induction is using List.reverseRecOn with
    | nil => exact ⟨.refl _, fun _ => rfl⟩
    | append_singleton is i ih =>
      obtain ⟨hsub, hall⟩ := samplesPut_sublist c ((hinit.run is).step i).exact
      simp only [log, audioRingMachine.trace_concat, List.flatMap_append, List.flatMap_singleton]
      refine ⟨ih.1.append hsub, ?_⟩
      intro hfull
      rw [ih.2 fun e he => hfull e (List.mem_append_left _ he),
        hall (hfull _ (List.mem_append_right _ (List.mem_singleton_self _)))]
      rfl
  have hfront : ((columnsTaken log).take (columnsGone log)).map (·.sample c) <+: log.flatMap (samplesPut c) := by
    rw [← hheard.put]
    exact (List.take_prefix _ _).map _
  refine ⟨(hheard.played.trans hfront.sublist).trans hput.1, ?_⟩
  intro hlossless
  rw [← hput.2 fun e he => (hlossless e he).2, hheard.whole fun e he => (hlossless e he).1]
  exact hfront

end Heard

/-! ## A frame with its samples -/

/-- A frame on its way, with the width and the samples it was built from. -/
structure SentFrame where
  bytes : List UInt8
  width : ℕ
  samples : ℕ → ℕ → S24

section Frames

variable {α : Type} {accept : RxAccept} {box : Mac} {f : SentFrame} {frame : List UInt8}

/-- What the ring should be given for a frame. -/
def SentFrame.block (conv : S24 → α) (f : SentFrame) : CallerBlock α where
  planar i := conv (if i < f.width * 12 then f.samples (i / 12) (i % 12) else silence)
  n := 12
  channels := UInt32.ofNat f.width

/-- The frame belongs to the stream of `box`, and carries the samples. -/
structure Carries (accept : RxAccept) (box : Mac) (f : SentFrame) : Prop where
  stream : BoxFrame accept box f.bytes
  width : f.width ≤ 40
  decoded : ∀ rate, feedDecode accept (reacModeFor rate) (cleanFrame f.bytes) =
    ((f.width : ℤ), some (planarBytes f.width 12 f.samples, 12))

theorem reacModeFor_size (rate : ℤ) : (reacModeFor rate).nChannels = 40 ∧ (reacModeFor rate).samplesPerPkt = 12 := by
  unfold reacModeFor
  split_ifs <;> exact ⟨rfl, rfl⟩

theorem upstreamDecode_isSome : (upstreamDecode frame).isSome = (upstreamLenOk frame.length && framed frame) := by
  unfold upstreamDecode upstreamChannels
  by_cases hlen : upstreamLenOk frame.length = true
  · have hpos : (frame.length - 52) / 36 ≠ 0 := by
      have := of_decide_eq_true hlen
      omega
    cases hframed : framed frame <;> simp [hlen, hpos]
  · simp [hlen]

/-- `feed_frame` writes into the ring exactly for the frames that the receiver counts as decoded. -/
theorem feedFrame_isSome (conv : S24 → α) (rate : ℤ) :
    (feedFrame conv accept (reacModeFor rate) frame).isSome = frameDecodes accept frame := by
  have hdecode : (feedFrame conv accept (reacModeFor rate) frame).isSome =
      (feedDecode accept (reacModeFor rate) frame).2.isSome := by
    unfold feedFrame
    rcases feedDecode accept (reacModeFor rate) frame with ⟨nch, - | ⟨s24, ns⟩⟩ <;> rfl
  rw [hdecode]
  unfold frameDecodes
  cases accept with
  | upstream => exact upstreamDecode_isSome
  | downstream =>
    by_cases hlen : frame.length = frameBytes
    · have hok : upstreamLenOk frameBytes = true := by decide
      have hlen' : frame.length = 1492 := hlen
      show (reacDecode frame (reacModeFor rate)).isSome = _
      rw [reacDecode_eq_upstreamDecode (reacModeFor_size rate) hlen, upstreamDecode_isSome, hlen, hok]
      unfold framed frameBytes
      rw [hlen']
      rfl
    · have hlen' : ¬ frame.length = 1492 := hlen
      have hnone : reacDecode frame (reacModeFor rate) = none := by
        unfold reacDecode frameInspect
        simp [hlen]
      show (reacDecode frame (reacModeFor rate)).isSome = _
      rw [hnone]
      simp [hlen']

theorem length_planarBytes (n ns : ℕ) (g : ℕ → ℕ → S24) : (planarBytes n ns g).length = n * (ns * 3) := by
  simp [planarBytes, List.length_flatMap]

/-- A planar output, sample by sample. -/
theorem s24At_planarBytes (n : ℕ) (g : ℕ → ℕ → S24) (i : ℕ) :
    s24At (planarBytes n 12 g) i = if i < n * 12 then g (i / 12) (i % 12) else silence := by
  split_ifs with hi
  · have hch : i / 12 < n := by omega
    have hs : i % 12 < frameSamples := Nat.mod_lt _ (by decide)
    rw [← @sample_planesOf n g n _ _ (le_refl _) hch hs]
    have hch' : ((i / 12 : ℕ) : ℤ) < (n : ℤ) := by exact_mod_cast hch
    have hat : i / 12 * 12 + i % 12 = i := by omega
    simp only [planesOf, Planes.sample, hch', if_true, frameSamples, hat]
    rfl
  · ext k hk
    unfold s24At
    rw [Vector.getElem_ofFn, List.getD_eq_default _ _ (by rw [length_planarBytes]; omega)]
    simp [silence]

theorem Carries.block (h : Carries accept box f) (conv : S24 → α) (rate : ℤ) :
    feedFrame conv accept (reacModeFor rate) (cleanFrame f.bytes) = some (f.block conv) := by
  have hwidth := h.width
  have hclip : (min (f.width : ℤ) reacMaxChannels).toNat = f.width := by
    unfold reacMaxChannels
    omega
  unfold feedFrame SentFrame.block
  rw [h.decoded rate]
  simp only [s24At_planarBytes, hclip]
  rfl

end Frames

/-! ## The wire -/

/-- What happens at the receiver: frame `k` of the stream arrives, or something else, or the ring is played
or trimmed. -/
inductive Arrival where
  | sent (k : ℕ) (now : UInt64)
  | other (bytes : List UInt8) (now : UInt64)
  | read (channels n : UInt32)
  | trim (keep : UInt32)

def Arrival.input (sent : ℕ → SentFrame) : Arrival → PlayoutInput
  | .sent k now => .rx (.frame (sent k).bytes now)
  | .other bytes now => .rx (.frame bytes now)
  | .read channels n => .read channels n
  | .trim keep => .trim keep

/-- The call that the ring should see. -/
def Arrival.call {α : Type} (conv : S24 → α) (sent : ℕ → SentFrame) : Arrival → Option (AudioRingInput α)
  | .sent k _ => some (.write ((sent k).block conv))
  | .other _ _ => none
  | .read channels n => some (.read channels n)
  | .trim keep => some (.trim keep)

/-- The frame of the stream that arrives. -/
def Arrival.index? : Arrival → Option ℕ
  | .sent k _ => some k
  | _ => none

/-- The frame has nothing to do with the box. -/
def Stranger (box : Mac) (bytes : List UInt8) : Prop := frameIsReac bytes = false ∨ macAt bytes 6 ≠ box

/-- What may arrive behind frame `last` of the stream and `n` frames in its name: a later frame of the
stream, with at most half the counter space lost before it, strangers, and no more than seven frames in a
row that are the box's by name but not ahead of it. -/
def OnWire (box : Mac) (sent : ℕ → SentFrame) : Option ℕ → ℕ → List Arrival → Prop
  | _, _, [] => True
  | last, _, .sent k _ :: rest => (∀ l ∈ last, l < k ∧ k ≤ l + 32768) ∧ OnWire box sent (some k) 0 rest
  | last, n, .other bytes _ :: rest =>
    Stranger box bytes ∧ OnWire box sent last n rest ∨
      (∃ l ∈ last, counterAhead (frameCounter (sent l).bytes) (frameCounter bytes) = false) ∧ n + 1 < 8 ∧
        OnWire box sent last (n + 1) rest
  | last, n, .read _ _ :: rest => OnWire box sent last n rest
  | last, n, .trim _ :: rest => OnWire box sent last n rest

/-- The frames of the stream that were lost between those that arrived. -/
def framesLost : Option ℕ → List ℕ → ℕ
  | _, [] => 0
  | none, k :: ks => framesLost (some k) ks
  | some l, k :: ks => (k - l - 1) + framesLost (some k) ks

section Receiver

variable {accept : RxAccept} {box : Mac} {sent : ℕ → SentFrame} {last : Option ℕ} {n : ℕ} {rx : Rx}
  {first : UInt16}

/-- A stream of the box, with a counter that goes up by one. -/
def Stream (accept : RxAccept) (box : Mac) (first : UInt16) (sent : ℕ → SentFrame) : Prop :=
  ∀ k, Carries accept box (sent k) ∧ frameCounter (sent k).bytes = first + UInt16.ofNat k

/-- The receiver behind frame `last` of the stream and `n` frames in its name. -/
structure Following (accept : RxAccept) (box : Mac) (sent : ℕ → SentFrame) (last : Option ℕ) (n : ℕ) (rx : Rx) :
    Prop where
  accept : rx.accept = accept
  locked : rx.upSrcLocked = true
  src : rx.upSrc = box
  epoch : rx.peerEpoch = rx.seenEpoch
  counting : rx.haveCounter = last.isSome
  counter : ∀ l ∈ last, rx.lastCounter = frameCounter (sent l).bytes
  run : rx.staleRun ≤ n
  prev : ∀ p ∈ rx.prevFrame, ∃ l ∈ last, counterAhead (frameCounter (sent l).bytes) (frameCounter p) = false

theorem Following.start (session epoch : UInt32) :
    Following accept box sent none 0 (lockedRx accept box session epoch) :=
  ⟨rfl, rfl, rfl, rfl, rfl, nofun, le_refl _, nofun⟩

/-- A locked receiver has no room for a new lock. -/
theorem lock_locked_eq (h : rx.upSrcLocked = true) (frame : List UInt8) : rx.lock frame = rx := by
  unfold Rx.lock
  rw [if_neg (by simp [h])]

/-- How far a later frame of the stream is ahead. -/
theorem counterGap_stream {l k : ℕ} (hlt : l < k) (hle : k ≤ l + 32768) (first : UInt16) :
    (counterGap (first + UInt16.ofNat l) (first + UInt16.ofNat k)).toNat = k - l - 1 := by
  obtain ⟨d, rfl⟩ : ∃ d, k = l + d + 1 := ⟨k - l - 1, by omega⟩
  have hgap : counterGap (first + UInt16.ofNat l) (first + UInt16.ofNat (l + d + 1)) = UInt16.ofNat d := by
    unfold counterGap
    rw [UInt16.ofNat_add, UInt16.ofNat_add]
    show _ = _
    have hone : UInt16.ofNat 1 = 1 := rfl
    rw [hone]
    grind
  rw [hgap, UInt16.toNat_ofNat_of_lt' (by show d < 65536; omega)]
  omega

/-- A later frame of the stream is followed and decoded. -/
theorem Following.arrives {k : ℕ} (h : Following accept box sent last n rx) (hs : Stream accept box first sent)
    (hk : ∀ l ∈ last, l < k ∧ k ≤ l + 32768) :
    (rxLoopBody rx (sent k).bytes).2 = .decoded (cleanFrame (sent k).bytes) ∧
      Following accept box sent (some k) 0 (rxLoopBody rx (sent k).bytes).1 ∧
      (rxLoopBody rx (sent k).bytes).1.counterGaps = rx.counterGaps + framesLost last [k] ∧
      (rxLoopBody rx (sent k).bytes).1.framesOk = rx.framesOk + 1 ∧
      (rxLoopBody rx (sent k).bytes).1.framesBad = rx.framesBad := by
  obtain ⟨hcarries, hcounter⟩ := hs k
  have hahead : ∀ l ∈ last, (counterGap rx.lastCounter (frameCounter (sent k).bytes)).toNat = k - l - 1 := by
    intro l hl
    rw [h.counter l hl, (hs l).2, hcounter]
    exact counterGap_stream (hk l hl).1 (hk l hl).2 first
  have hnew : rx.prevFrame ≠ some (cleanFrame (sent k).bytes) := by
    intro hp
    obtain ⟨l, hl, hbehind⟩ := h.prev _ hp
    have hgap := hahead l hl
    have hle := (hk l hl).2
    rw [h.counter l hl] at hgap
    rw [frameCounter_cleanFrame] at hbehind
    have hnot := of_decide_eq_false hbehind
    rw [UInt16.lt_iff_toNat_lt, hgap] at hnot
    exact hnot (by show _ < 32768; omega)
  have hgate : (gateAccepts rx (cleanFrame (sent k).bytes)).2 = true := by
    rw [gateAccepts_box h.accept h.locked h.src hcarries.stream]
  have hpass : ¬ (rx.haveCounter = true ∧
      counterAhead rx.lastCounter (frameCounter (sent k).bytes) = false) := by
    rintro ⟨hhave, hbehind⟩
    rw [h.counting] at hhave
    obtain ⟨l, hl⟩ := Option.isSome_iff_exists.mp hhave
    have hgap := hahead l hl
    have hle := (hk l hl).2
    have hnot := of_decide_eq_false hbehind
    rw [UInt16.lt_iff_toNat_lt, hgap] at hnot
    exact hnot (by show _ < 32768; omega)
  have hlost : (if rx.haveCounter then
      (counterGap rx.lastCounter (frameCounter (sent k).bytes)).toNat else 0) = framesLost last [k] := by
    rw [h.counting]
    cases last with
    | none => rfl
    | some l => exact hahead l rfl
  rw [rxLoopBody_new hcarries.stream.reac hgate hnew, lock_locked_eq h.locked,
    rxEpochCheck_of_eq (by exact h.epoch)]
  unfold rxCounterGate rxFollow
  dsimp only
  rw [frameCounter_cleanFrame, if_neg hpass, hlost, h.accept, if_pos hcarries.stream.decodes]
  refine ⟨rfl, ⟨rfl, h.locked, h.src, h.epoch, rfl, ?_, le_refl _, ?_⟩, rfl, rfl, rfl⟩
  · intro l hl
    obtain rfl := Option.some.inj hl
    rfl
  · intro p hp
    obtain rfl := Option.some.inj hp
    exact ⟨k, rfl, by rw [frameCounter_cleanFrame, counterAhead_self]⟩

/-- What is not the box's next frame changes counts at most. -/
structure RxUnmoved (rx rx' : Rx) : Prop where
  counterGaps : rx'.counterGaps = rx.counterGaps
  framesOk : rx'.framesOk = rx.framesOk
  framesBad : rx'.framesBad = rx.framesBad

/-- The gate refuses a frame with another source. -/
theorem gateAccepts_stranger (hlock : rx.upSrcLocked = true) {bytes : List UInt8}
    (hsrc : macAt bytes 6 ≠ rx.upSrc) : (gateAccepts rx (cleanFrame bytes)).2 = false := by
  have hne : (rx.upSrc == macAt bytes 6) = false := beq_eq_false_iff_ne.mpr (Ne.symm hsrc)
  unfold gateAccepts
  rw [macAt_cleanFrame bytes (by omega), macAt_cleanFrame bytes (by omega), hlock]
  dsimp only
  rw [hne]
  cases rx.accept with
  | downstream =>
    dsimp only
    split_ifs <;> rfl
  | upstream =>
    simp only [Bool.not_true, Bool.false_eq_true, if_false]
    split_ifs <;> rfl

theorem Following.stranger (h : Following accept box sent last n rx) {bytes : List UInt8}
    (hstranger : Stranger box bytes) :
    (rxLoopBody rx bytes).2.decodedFrame = none ∧ Following accept box sent last n (rxLoopBody rx bytes).1 ∧
      RxUnmoved rx (rxLoopBody rx bytes).1 := by
  cases hreac : frameIsReac bytes with
  | false =>
    rw [rxLoopBody_ignored hreac]
    exact ⟨rfl, h, rfl, rfl, rfl⟩
  | true =>
    have hsrc : macAt bytes 6 ≠ rx.upSrc := by
      rcases hstranger with hnot | hsrc
      · rw [hreac] at hnot
        cases hnot
      · rw [h.src]
        exact hsrc
    rw [rxLoopBody_refused hreac (gateAccepts_stranger h.locked hsrc)]
    exact ⟨rfl, ⟨h.accept, h.locked, h.src, h.epoch, h.counting, h.counter, h.run, h.prev⟩, rfl, rfl, rfl⟩

/-- A frame in the box's name that is not ahead of it is refused. -/
theorem Following.behind {l : ℕ} (h : Following accept box sent last n rx) (hl : l ∈ last) {bytes : List UInt8}
    (hbehind : counterAhead (frameCounter (sent l).bytes) (frameCounter bytes) = false) (hn : n + 1 < 8) :
    (rxLoopBody rx bytes).2.decodedFrame = none ∧
      Following accept box sent last (n + 1) (rxLoopBody rx bytes).1 ∧ RxUnmoved rx (rxLoopBody rx bytes).1 := by
  have hstale : rx.staleRun ≤ n + 1 := Nat.le_succ_of_le h.run
  cases hreac : frameIsReac bytes with
  | false =>
    rw [rxLoopBody_ignored hreac]
    exact ⟨rfl, ⟨h.accept, h.locked, h.src, h.epoch, h.counting, h.counter, hstale, h.prev⟩, rfl, rfl, rfl⟩
  | true =>
    cases hgate : (gateAccepts rx (cleanFrame bytes)).2 with
    | false =>
      rw [rxLoopBody_refused hreac hgate]
      exact ⟨rfl, ⟨h.accept, h.locked, h.src, h.epoch, h.counting, h.counter, hstale, h.prev⟩, rfl, rfl, rfl⟩
    | true =>
      by_cases hdup : rx.prevFrame = some (cleanFrame bytes)
      · rw [rxLoopBody_dup hreac hgate hdup, lock_locked_eq h.locked]
        exact ⟨rfl, ⟨h.accept, h.locked, h.src, h.epoch, h.counting, h.counter, hstale, h.prev⟩, rfl, rfl, rfl⟩
      · have hrun : rx.nextRun (frameCounter bytes) ≤ n + 1 := by
          have := h.run
          unfold Rx.nextRun
          split_ifs <;> omega
        have hrefused : rx.haveCounter = true ∧ counterAhead rx.lastCounter (frameCounter bytes) = false := by
          rw [h.counting, h.counter l hl]
          exact ⟨Option.isSome_iff_exists.mpr ⟨l, hl⟩, hbehind⟩
        have hshort : rx.nextRun (frameCounter bytes) < 8 := by omega
        rw [rxLoopBody_new hreac hgate hdup, lock_locked_eq h.locked, rxEpochCheck_of_eq (by exact h.epoch)]
        unfold rxCounterGate
        dsimp only
        rw [frameCounter_cleanFrame, if_pos hrefused, if_pos (by exact hshort)]
        refine ⟨rfl, ⟨h.accept, h.locked, h.src, h.epoch, h.counting, h.counter, hrun, ?_⟩, rfl, rfl, rfl⟩
        intro p hp
        obtain rfl := Option.some.inj hp
        exact ⟨l, hl, by rw [frameCounter_cleanFrame]; exact hbehind⟩

end Receiver

/-! ## From the wire to the ring -/

section Plays

variable {α : Type} [Zero α] {accept : RxAccept} {box : Mac} {first : UInt16} {sent : ℕ → SentFrame}

/-- The call on the ring that a step made. -/
def ringEvent (e : Event (Playout α) PlayoutInput (PlayoutOut α)) : Option (AudioRingEvent α) :=
  e.out.call.map fun call => ⟨e.pre.ring, call.1, call.2, e.post.ring⟩

/-- What the ring went through in a run. -/
def ringLog (log : List (Event (Playout α) PlayoutInput (PlayoutOut α))) : List (AudioRingEvent α) :=
  log.filterMap ringEvent

/-- A run leaves the receiver with these counts, and the ring as if it had been called alone. -/
structure PlaysOut (conv : S24 → α) (mode : ReacMode) (s : Playout α) (sent : ℕ → SentFrame) (last : Option ℕ)
    (is : List Arrival) : Prop where
  log : ringLog ((playoutMachine conv mode).trace s (is.map (Arrival.input sent))) =
    audioRingMachine.trace s.ring (is.filterMap (Arrival.call conv sent))
  ok : ((playoutMachine conv mode).run s (is.map (Arrival.input sent))).loop.rx.framesOk =
    s.loop.rx.framesOk + (is.filterMap Arrival.index?).length
  bad : ((playoutMachine conv mode).run s (is.map (Arrival.input sent))).loop.rx.framesBad =
    s.loop.rx.framesBad
  gaps : ((playoutMachine conv mode).run s (is.map (Arrival.input sent))).loop.rx.counterGaps =
    s.loop.rx.counterGaps + framesLost last (is.filterMap Arrival.index?)

theorem framesLost_cons (last : Option ℕ) (k : ℕ) (ks : List ℕ) :
    framesLost last (k :: ks) = framesLost last [k] + framesLost (some k) ks := by
  cases last with
  | none => simp [framesLost]
  | some l => simp [framesLost]

/-- A frame that is not decoded leaves the ring alone. -/
theorem playoutStep_idle (conv : S24 → α) (mode : ReacMode) (s : Playout α) {bytes : List UInt8} {now : UInt64}
    (h : (rxLoopBody s.loop.rx bytes).2.decodedFrame = none) :
    ∃ window, playoutStep conv mode s (.rx (.frame bytes now)) =
      ({ s with loop := ⟨(rxLoopBody s.loop.rx bytes).1, window⟩ }, { rx := (rxLoopBody s.loop.rx bytes).2 }) := by
  unfold playoutStep rxLoopStep
  dsimp only
  cases hout : (rxLoopBody s.loop.rx bytes).2 with
  | decoded frame =>
    rw [hout] at h
    cases h
  | ignored | other | dup | bad => exact ⟨_, rfl⟩

/-- A frame that is decoded goes into the ring. -/
theorem playoutStep_decoded (conv : S24 → α) (mode : ReacMode) (s : Playout α) {bytes frame : List UInt8}
    {now : UInt64} {block : CallerBlock α} (h : (rxLoopBody s.loop.rx bytes).2 = .decoded frame)
    (hblock : feedFrame conv (rxLoopBody s.loop.rx bytes).1.accept mode frame = some block) :
    ∃ window, playoutStep conv mode s (.rx (.frame bytes now)) =
      Playout.onRing { s with loop := ⟨(rxLoopBody s.loop.rx bytes).1, window⟩ } (.decoded frame)
        (.write block) := by
  unfold playoutStep rxLoopStep
  dsimp only
  rw [h]
  dsimp only
  rw [hblock]
  exact ⟨_, rfl⟩

/-- A frame of the stream in front of a run. -/
theorem PlaysOut.arrives {conv : S24 → α} {rate : ℤ} (hs : Stream accept box first sent) {last : Option ℕ}
    {n k : ℕ} {now : UInt64} {s : Playout α} {is : List Arrival} (h : Following accept box sent last n s.loop.rx)
    (hk : ∀ l ∈ last, l < k ∧ k ≤ l + 32768)
    (hrest : ∀ s', Following accept box sent (some k) 0 s'.loop.rx →
      PlaysOut conv (reacModeFor rate) s' sent (some k) is) :
    PlaysOut conv (reacModeFor rate) s sent last (.sent k now :: is) := by
  obtain ⟨hout, hnext, hgaps, hok, hbad⟩ := h.arrives hs hk
  have hblock : feedFrame conv (rxLoopBody s.loop.rx (sent k).bytes).1.accept (reacModeFor rate)
      (cleanFrame (sent k).bytes) = some ((sent k).block conv) := by
    rw [hnext.accept]
    exact (hs k).1.block conv rate
  obtain ⟨window, hstep⟩ := @playoutStep_decoded _ _ conv (reacModeFor rate) s _ _ now _ hout hblock
  have hplays := hrest (playoutStep conv (reacModeFor rate) s (.rx (.frame (sent k).bytes now))).1
    (by rw [hstep]; exact hnext)
  refine ⟨?_, ?_, ?_, ?_⟩
  · have hlog := hplays.log
    rw [hstep] at hlog
    simp only [List.map_cons, Reactive.Machine.trace_cons, ringLog, List.filterMap_cons, Arrival.call] at hlog ⊢
    simp only [ringEvent, Reactive.Machine.event, playoutMachine_step, Arrival.input, hstep]
    exact congrArg _ hlog
  · refine hplays.ok.trans ?_
    rw [hstep]
    show (rxLoopBody s.loop.rx (sent k).bytes).1.framesOk + _ = _ + (_ + 1)
    rw [hok]
    omega
  · refine hplays.bad.trans ?_
    rw [hstep]
    exact hbad
  · refine hplays.gaps.trans ?_
    rw [hstep]
    show (rxLoopBody s.loop.rx (sent k).bytes).1.counterGaps + _ =
      _ + framesLost last (k :: is.filterMap Arrival.index?)
    rw [hgaps, Nat.add_assoc, ← framesLost_cons]

/-- Anything else that arrives, in front of a run. -/
theorem PlaysOut.other {conv : S24 → α} {mode : ReacMode} {last : Option ℕ} {bytes : List UInt8} {now : UInt64}
    {s : Playout α} {is : List Arrival} (hout : (rxLoopBody s.loop.rx bytes).2.decodedFrame = none)
    (hsame : RxUnmoved s.loop.rx (rxLoopBody s.loop.rx bytes).1)
    (hrest : ∀ window, PlaysOut conv mode { s with loop := ⟨(rxLoopBody s.loop.rx bytes).1, window⟩ } sent last is) :
    PlaysOut conv mode s sent last (.other bytes now :: is) := by
  obtain ⟨window, hstep⟩ := @playoutStep_idle _ _ conv mode s _ now hout
  have hplays := hrest window
  have hrun : (playoutMachine conv mode).run s ((Arrival.other bytes now :: is).map (Arrival.input sent)) =
      (playoutMachine conv mode).run { s with loop := ⟨(rxLoopBody s.loop.rx bytes).1, window⟩ }
        (is.map (Arrival.input sent)) := by
    rw [List.map_cons, Reactive.Machine.run_cons, Arrival.input, playoutMachine_step, hstep]
  refine ⟨?_, ?_, ?_, ?_⟩
  · have hlog := hplays.log
    simp only [List.map_cons, Reactive.Machine.trace_cons, ringLog, List.filterMap_cons, Arrival.call] at hlog ⊢
    simp only [ringEvent, Reactive.Machine.event, playoutMachine_step, Arrival.input, hstep]
    exact hlog
  · rw [hrun]
    exact hplays.ok.trans (congrArg (· + _) hsame.framesOk)
  · rw [hrun]
    exact hplays.bad.trans hsame.framesBad
  · rw [hrun]
    exact hplays.gaps.trans (congrArg (· + _) hsame.counterGaps)

/-- Frame by frame and call by call, the ring sees the stream and nothing else. -/
theorem Following.plays {conv : S24 → α} {rate : ℤ} (hs : Stream accept box first sent) {last : Option ℕ} {n : ℕ}
    {s : Playout α} {is : List Arrival} (h : Following accept box sent last n s.loop.rx)
    (hwire : OnWire box sent last n is) : PlaysOut conv (reacModeFor rate) s sent last is := by
  induction is generalizing last n s with
  | nil => exact ⟨rfl, rfl, rfl, rfl⟩
  | cons i is ih =>
    cases i with
    | sent k now =>
      obtain ⟨hk, hrest⟩ := hwire
      exact .arrives hs h hk fun s' hs' => ih hs' hrest
    | other bytes now =>
      rcases hwire with ⟨hstranger, hrest⟩ | ⟨⟨l, hl, hbehind⟩, hn, hrest⟩
      · obtain ⟨hout, hnext, hsame⟩ := h.stranger hstranger
        exact .other hout hsame fun window => ih hnext hrest
      · obtain ⟨hout, hnext, hsame⟩ := h.behind hl hbehind hn
        exact .other hout hsame fun window => ih hnext hrest
    | read channels m =>
      have hih := @ih last n (playoutStep conv (reacModeFor rate) s (.read channels m)).1 h hwire
      exact ⟨congrArg _ hih.log, hih.ok, hih.bad, hih.gaps⟩
    | trim keep =>
      have hih := @ih last n (playoutStep conv (reacModeFor rate) s (.trim keep)).1 h hwire
      exact ⟨congrArg _ hih.log, hih.ok, hih.bad, hih.gaps⟩

end Plays

end Libreac
