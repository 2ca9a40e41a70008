import Libreac.RateTrack
import Mathlib.Algebra.Order.Group.Nat

/-!
# Proofs: one stream is measured once

A copy of a frame fewer than 32768 counters old lies more than half the range ahead in serial
arithmetic (`copy_step`), and a counter's own step never does. So what is measured is a function of the
stream alone (`measured`), which each frame of the stream extends and each copy leaves as it is.
-/

namespace Libreac

open Reactive
open Reactive.Machine (Offered)

variable {τ : Type}

/-! ## The way of a counter -/

/-- The distance from the counter `c` through the counters `cs`. -/
def counterDistance (c : UInt16) : List UInt16 → ℕ
  | [] => 0
  | c' :: cs => (c' - c).toNat + counterDistance c' cs

theorem counterDistance_concat (c d : UInt16) (cs : List UInt16) :
    counterDistance c (cs ++ [d]) = counterDistance c cs + (d - cs.getLastD c).toNat := by
  induction cs generalizing c with
  | nil => simp [counterDistance]
  | cons c' cs ih =>
    rw [List.cons_append, counterDistance, ih, counterDistance, List.getLastD_cons]
    omega

/-- The distance is how far the last counter is ahead of the first. -/
theorem getLastD_sub (c : UInt16) (cs : List UInt16) :
    (cs.getLastD c - c).toNat = counterDistance c cs % 65536 := by
  induction cs generalizing c with
  | nil => simp [counterDistance]
  | cons c' cs ih =>
    rw [List.getLastD_cons, counterDistance]
    have hsplit : cs.getLastD c' - c = (c' - c) + (cs.getLastD c' - c') := by
      grind
    rw [hsplit, UInt16.toNat_add, ih]
    omega

/-- A counter fewer than 32768 behind the newest one is a step the code refuses. -/
theorem copy_step {c : UInt16} {cs : List UInt16} (h : counterDistance c cs < 32768) :
    c - cs.getLastD c = 0 ∨ 0x8000 < c - cs.getLastD c := by
  have hahead := getLastD_sub c cs
  rw [Nat.mod_eq_of_lt (by omega)] at hahead
  have hback : (c - cs.getLastD c).toNat = (65536 - counterDistance c cs) % 65536 := by
    rw [← UInt16.neg_sub, UInt16.toNat_neg, hahead]
  rcases Nat.eq_zero_or_pos (counterDistance c cs) with hzero | hpos
  · left
    rw [← UInt16.toNat_inj, hback, hzero]
    rfl
  · right
    rw [UInt16.lt_iff_toNat_lt, hback]
    show 32768 < _
    omega

/-! ## A stream and what is heard beside it -/

/-- The next frame of a stream: from the same source, its counter ahead by 1 to 32767. -/
structure StreamNext (f g : HeardFrame τ) : Prop where
  source : g.source = f.source
  pos : 1 ≤ (g.counter - f.counter).toNat
  le : (g.counter - f.counter).toNat ≤ 32767

/-- The distance from the first frame of a stream to the last one. -/
def streamDistance (f : HeardFrame τ) (fs : List (HeardFrame τ)) : ℕ :=
  counterDistance f.counter (fs.map HeardFrame.counter)

/-- `x` has the bytes of one of the frames `fs`, fewer than 32768 counters behind the newest. -/
def RecentCopy (fs : List (HeardFrame τ)) (x : HeardFrame τ) : Prop :=
  ∃ older g newer, fs = older ++ g :: newer ∧ x.bytes = g.bytes ∧ streamDistance g newer < 32768

/-- What is to be measured of the stream that starts with `f`. -/
def measured (f : HeardFrame τ) (fs : List (HeardFrame τ)) : RateTrack τ where
  have_ := true
  mac := f.source
  lastCounter := (fs.getLastD f).counter
  advance := UInt64.ofNat (streamDistance f fs)
  first := f.now
  last := (fs.getLastD f).now

section Feed

variable {f x : HeardFrame τ} {fs : List (HeardFrame τ)}

theorem rateTrackFeed_first (origin : τ) (f : HeardFrame τ) :
    rateTrackFeed (RateTrack.zero origin) f = measured f [] := rfl

/-- The next frame of the stream is measured. -/
theorem rateTrackFeed_next (hsource : x.source = f.source) (hpos : 1 ≤ (x.counter - (fs.getLastD f).counter).toNat)
    (hle : (x.counter - (fs.getLastD f).counter).toNat ≤ 32767) :
    rateTrackFeed (measured f fs) x = measured f (fs ++ [x]) := by
  have hstep : ¬ (x.counter - (fs.getLastD f).counter = 0 ∨
      0x8000 < x.counter - (fs.getLastD f).counter) := by
    rintro (hzero | hhalf)
    · rw [hzero] at hpos
      simp at hpos
    · rw [UInt16.lt_iff_toNat_lt] at hhalf
      have hhalf : 32768 < (x.counter - (fs.getLastD f).counter).toNat := hhalf
      omega
  have hdistance : streamDistance f (fs ++ [x]) =
      streamDistance f fs + (x.counter - (fs.getLastD f).counter).toNat := by
    unfold streamDistance
    rw [List.map_append, List.map_singleton, counterDistance_concat, List.getLastD_map]
  unfold rateTrackFeed
  dsimp only [measured]
  split_ifs with hhave hother
  · simp at hhave
  · exact absurd hsource.symm hother
  · rw [List.getLastD_concat, hdistance]
    ext
    · rfl
    · rfl
    · rfl
    · simp [UInt64.ofNat_add]
    · rfl
    · rfl

/-- A frame of another source is not. -/
theorem rateTrackFeed_other (hsource : x.source ≠ f.source) : rateTrackFeed (measured f fs) x = measured f fs := by
  unfold rateTrackFeed
  rw [if_neg (by simp [measured]), if_pos (by simpa [measured] using hsource.symm)]

/-- Nor is a copy. -/
theorem rateTrackFeed_copy (h : RecentCopy (f :: fs) x) : rateTrackFeed (measured f fs) x = measured f fs := by
  obtain ⟨older, g, newer, hsplit, hbytes, hnear⟩ := h
  have hlast : fs.getLastD f = newer.getLastD g := by
    rw [← List.getLast_eq_getLastD (List.cons_ne_nil f fs),
      ← List.getLast_eq_getLastD (List.cons_ne_nil g newer)]
    simp [hsplit]
  have hcounter : x.counter = g.counter := by rw [HeardFrame.counter, hbytes, HeardFrame.counter]
  have hstep := copy_step hnear
  rw [List.getLastD_map, ← hlast, ← hcounter] at hstep
  unfold rateTrackFeed
  rw [if_neg (by simp [measured])]
  split_ifs with hsource
  · rfl
  · exact if_pos hstep

end Feed

/-! ## The runs -/

/-- The frames heard after the first frame `f` are the rest of its stream, copies of frames of the
stream that are fewer than 32768 counters old, and frames of other sources. -/
structure HeardStream (f : HeardFrame τ) (heard : List (Offered (HeardFrame τ))) : Prop where
  stream : (f :: heard.filterMap Offered.both?).IsChain StreamNext
  beside : ∀ before x after, heard = before ++ .extra x :: after →
    x.source ≠ f.source ∨ RecentCopy (f :: before.filterMap Offered.both?) x

theorem HeardStream.of_append {f : HeardFrame τ} {heard more : List (Offered (HeardFrame τ))}
    (h : HeardStream f (heard ++ more)) : HeardStream f heard where
  stream := by
    have hchain := h.stream
    rw [List.filterMap_append, ← List.cons_append] at hchain
    exact (List.isChain_append.mp hchain).1
  beside before x after hsplit := h.beside before x (after ++ more) (by rw [hsplit]; simp)

/-- All frames of the stream are from the source of the first. -/
theorem source_of_chain {f g : HeardFrame τ} {fs : List (HeardFrame τ)}
    (h : (f :: fs).IsChain StreamNext) (hg : g ∈ f :: fs) : g.source = f.source := by
  induction fs generalizing f with
  | nil => rw [List.mem_singleton.mp hg]
  | cons f' fs ih =>
    obtain ⟨hnext, hrest⟩ := List.isChain_cons_cons.mp h
    rcases List.mem_cons.mp hg with rfl | hg
    · rfl
    · rw [ih hrest hg, hnext.source]

/-- Whatever is heard beside the stream, what is measured is the stream. -/
theorem rate_run (origin : τ) {f : HeardFrame τ} {heard : List (Offered (HeardFrame τ))}
    (h : HeardStream f heard) :
    rateMachine.run (RateTrack.zero origin) (f :: heard.map Offered.input) =
      measured f (heard.filterMap Offered.both?) := by
  induction heard using List.reverseRecOn with
  | nil => exact rateTrackFeed_first origin f
  | append_singleton heard i ih =>
    rw [List.map_append, ← List.cons_append, Machine.run_append, ih h.of_append, List.filterMap_append]
    have hchain := h.stream
    have hbeside := h.beside heard
    rw [List.filterMap_append] at hchain
    generalize heard.filterMap Offered.both? = fs at hchain hbeside ⊢
    cases i with
    | both x =>
      show rateTrackFeed (measured f fs) x = measured f (fs ++ [x])
      have hsource : x.source = f.source := source_of_chain hchain (by simp [Offered.both?])
      rw [← List.cons_append, List.isChain_append] at hchain
      have hlast := hchain.2.2 (fs.getLastD f)
        (by rw [List.getLast?_cons, List.getLastD_eq_getLast?]; rfl) x rfl
      exact rateTrackFeed_next hsource hlast.pos hlast.le
    | extra x =>
      show rateTrackFeed (measured f fs) x = measured f (fs ++ [])
      rw [List.append_nil]
      rcases hbeside x [] rfl with hother | hcopy
      · exact rateTrackFeed_other hother
      · exact rateTrackFeed_copy hcopy

/-- Frames that are copies or come from elsewhere leave the measurement as it is without them: the
distance from the first to the last frame of the stream, over the time from the one to the other. -/
theorem rate_measured_once (origin : τ) (f : HeardFrame τ) (heard : List (Offered (HeardFrame τ)))
    (h : HeardStream f heard) :
    let fs := heard.filterMap Offered.both?
    let t := rateMachine.run (RateTrack.zero origin) (f :: fs)
    rateMachine.run (RateTrack.zero origin) (f :: heard.map Offered.input) = t ∧
      t.mac = f.source ∧ t.advance = UInt64.ofNat (streamDistance f fs) ∧
      (streamDistance f fs < 2 ^ 64 → t.advance.toNat = streamDistance f fs) ∧
      t.first = f.now ∧ t.last = (fs.getLastD f).now := by
  intro fs t
  have halone : HeardStream f (fs.map Offered.both) := by
    constructor
    · rw [List.filterMap_map]
      simpa [Function.comp_def, Offered.both?] using h.stream
    · intro before x after hsplit
      have hmem : Offered.extra x ∈ fs.map Offered.both := by simp [hsplit]
      simp at hmem
  have ht : t = measured f fs := by
    have hrun := rate_run origin halone
    have hinput : (fs.map Offered.both).map Offered.input = fs := by simp [Function.comp_def, Offered.input]
    have hboth : (fs.map Offered.both).filterMap Offered.both? = fs := by
      simp [List.filterMap_map, Function.comp_def, Offered.both?]
    rwa [hinput, hboth] at hrun
  rw [rate_run origin h, ht]
  refine ⟨rfl, rfl, rfl, fun hsmall => ?_, rfl, rfl⟩
  exact UInt64.toNat_ofNat_of_lt' hsmall

/-- A REAC header from the source `..:src`. -/
def headerFrom (src : UInt8) (counter : UInt16) : List UInt8 :=
  broadcastMac.toList ++ [0x00, 0x40, 0xab, 0xc4, 0x00, src, 0x88, 0x19, counter.toUInt8, (counter >>> 8).toUInt8]

/-- A stream of two frames over a counter wrap, the first one mirrored, and a box beside it. -/
theorem rate_measured_mirrored :
    let f : HeardFrame ℕ := ⟨headerFrom 1 65000, 10⟩
    let heard : List (Offered (HeardFrame ℕ)) := [.both ⟨headerFrom 1 32000, 20⟩,
      .extra ⟨headerFrom 1 65000, 30⟩, .extra ⟨headerFrom 2 7, 40⟩]
    let t := rateMachine.run (RateTrack.zero 0) (f :: heard.map Offered.input)
    t.advance = 32536 ∧ t.first = 10 ∧ t.last = 20 := by
  intro f heard t
  have hstream : HeardStream f heard := by
    constructor
    · exact .cons_cons ⟨by decide, by decide, by decide⟩ (.singleton _)
    · intro before x after hsplit
      rcases before with _ | ⟨a, _ | ⟨b, _ | ⟨c, before⟩⟩⟩
      · simp [heard] at hsplit
      · obtain ⟨rfl, hx, -⟩ : a = _ ∧ _ ∧ _ := by simpa [heard] using hsplit.symm
        exact .inr ⟨[], f, _, rfl, by rw [hx], by decide⟩
      · obtain ⟨rfl, rfl, hx, -⟩ : a = _ ∧ b = _ ∧ _ ∧ _ := by simpa [heard] using hsplit.symm
        left
        rw [hx]
        decide
      · simp [heard] at hsplit
  have hdistance : streamDistance f (heard.filterMap Offered.both?) = 32536 := by decide
  obtain ⟨hbeside, -, hadvance, -, hfirst, hlast⟩ := rate_measured_once 0 f heard hstream
  rw [hdistance] at hadvance
  exact ⟨(congrArg RateTrack.advance hbeside).trans hadvance,
    (congrArg RateTrack.first hbeside).trans hfirst, (congrArg RateTrack.last hbeside).trans hlast⟩

end Libreac
