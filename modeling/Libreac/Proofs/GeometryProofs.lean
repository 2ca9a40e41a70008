import Libreac.Tap
import Libreac.Proofs.CorruptProofs
import Libreac.Proofs.DeskProofs

/-!
# Proofs: what is read as a declaration

`reac_ports_parse` looks at the block alone. The master and the discovery have verified the checksum
of everything but a FILLER when they call it, and the type word of nothing; the tap has verified
neither. So a port table under another type word is read as the declaration it is not.
-/

namespace Libreac

/-- The frame is a declaration: a config announce whose checksum closes. -/
def isDeclaration (frame : List UInt8) : Bool :=
  (ctrlParse frame).kind = .configAnnounce ∧ checksumVerify frame

/-- The type word is `cd ea`. -/
def isCdea (frame : List UInt8) : Bool := byteAt frame 16 = 0xcd ∧ byteAt frame 17 = 0xea

/-- The block reads as a port table. -/
def hasPortTable (frame : List UInt8) : Bool := 50 ≤ frame.length ∧ (portsParse frame).isSome

section Block

variable {frame : List UInt8}

theorem hasPortTable_block (h : hasPortTable frame = true) :
    50 ≤ frame.length ∧ byteAt frame 18 = 1 ∧ kindOfLink1 (byteAt frame 22) = .configAnnounce := by
  obtain ⟨hlen, hsome⟩ : 50 ≤ frame.length ∧ (portsParse frame).isSome = true := by
    simpa [hasPortTable] using h
  refine ⟨hlen, ?_⟩
  unfold portsParse at hsome
  dsimp only at hsome
  split_ifs at hsome with hseg hop
  · cases hsome
  · cases hsome
  · push Not at hseg hop
    refine ⟨hseg.1, ?_⟩
    have hcases : byteAt frame 22 = 0x82 ∨ byteAt frame 22 = 0x80 ∨ byteAt frame 22 = 0x84 := by
      by_cases h82 : byteAt frame 22 = 0x82
      · exact .inl h82
      · by_cases h80 : byteAt frame 22 = 0x80
        · exact .inr (.inl h80)
        · exact .inr (.inr (hop h82 h80))
    rcases hcases with h | h | h <;> rw [h] <;> rfl

/-- A REAC frame whose block reads as a port table is a config announce exactly under `cd ea`. -/
theorem hasPortTable_kind (h : hasPortTable frame = true) (h12 : byteAt frame 12 = 0x88)
    (h13 : byteAt frame 13 = 0x19) :
    (ctrlParse frame).kind = .configAnnounce ↔ isCdea frame = true := by
  obtain ⟨hlen, hlink, hop⟩ := hasPortTable_block h
  have hreac : ¬(frame.length < 50 ∨ byteAt frame 12 ≠ 0x88 ∨ byteAt frame 13 ≠ 0x19) := by
    simp [h12, h13, hlen]
  unfold ctrlParse isCdea
  rw [if_neg hreac]
  simp only [Nat.add_zero, hlink, hop]
  by_cases hcd : byteAt frame 16 = 0xcd ∧ byteAt frame 17 = 0xea
  · simp [hcd]
  · have hnot : byteAt frame 16 ≠ 0xcd ∨ byteAt frame 17 ≠ 0xea := by
      by_contra hn
      push Not at hn
      exact hcd hn
    simp only [hcd, decide_false, Bool.false_eq_true, iff_false]
    split_ifs <;> simp

/-- Where the reader has verified everything but a FILLER, the type word decides. -/
theorem isDeclaration_iff (h : hasPortTable frame = true) (hk : (ctrlParse frame).kind ≠ .none)
    (hck : (ctrlParse frame).kind ≠ .filler → checksumVerify frame = true) :
    isDeclaration frame = true ↔ isCdea frame = true := by
  obtain ⟨-, h12, h13⟩ := ctrlParse_reac hk
  have hkind := hasPortTable_kind h h12 h13
  rw [← hkind]
  simp only [isDeclaration, decide_eq_true_eq, and_iff_left_iff_imp]
  intro hconfig
  exact hck (by simp [hconfig])

end Block

/-! ## The master -/

/-- The frame carries a port table the pacer acts on: other widths than those recorded, for which it
calls `reac_master_set_box`, or a row of the catalogue, which it stores. -/
def Pacer.setsGeometry (p : Pacer) (frame : List UInt8) : Bool :=
  50 ≤ frame.length ∧ (portsParse frame).any fun ports =>
    ports.inCh ≠ p.declaredIn ∨ ports.outCh ≠ p.declaredOut ∨ (boxCatalogueMatch frame).isSome

/-- The pacer reads the frame as a declaration. -/
def pacerDeclares (p : Pacer) (bytes : List UInt8) : Bool :=
  (p.takes bytes).isSome && p.setsGeometry (cleanFrame bytes)

section Pacer

variable {p : Pacer} {frame bytes : List UInt8}

theorem setsGeometry_portTable (h : p.setsGeometry frame = true) : hasPortTable frame = true := by
  cases hports : portsParse frame with
  | none => simp [Pacer.setsGeometry, hports] at h
  | some ports =>
    simp only [Pacer.setsGeometry, decide_eq_true_eq] at h
    simp [hasPortTable, h.1, hports]

theorem takes_classified {src : Mac} {ev : RxEvent} (h : p.takes bytes = some (src, ev)) :
    ∃ parsed, classifyBoxFrame (cleanFrame bytes) p.src = some (parsed, ev) := by
  unfold Pacer.takes at h
  cases hclass : classifyBoxFrame (cleanFrame bytes) p.src with
  | none => simp [hclass] at h
  | some pe =>
    obtain ⟨parsed, ev'⟩ := pe
    simp only [hclass, Option.ite_none_right_eq_some, Option.some.injEq, Prod.mk.injEq] at h
    exact ⟨parsed, by rw [h.2.2]⟩

theorem pacerDeclares_iff (h : pacerDeclares p bytes = true) :
    isDeclaration (cleanFrame bytes) = true ↔ isCdea bytes = true := by
  obtain ⟨htakes, hsets⟩ : (p.takes bytes).isSome = true ∧ p.setsGeometry (cleanFrame bytes) = true := by
    simpa [pacerDeclares] using h
  obtain ⟨⟨src, ev⟩, hev⟩ := Option.isSome_iff_exists.mp htakes
  obtain ⟨parsed, hclass⟩ := takes_classified hev
  obtain ⟨hkind, hck⟩ := classifyBoxFrame_verified hclass
  rw [isDeclaration_iff (setsGeometry_portTable hsets) hkind hck]
  simp [isCdea, byteAt_cleanFrame bytes (show 16 < 52 by omega),
    byteAt_cleanFrame bytes (show 17 < 52 by omega)]

end Pacer

/-! ## The discovery -/

/-- The discovery takes the frame and its block gives two legal widths. -/
def sightingReads (frame : List UInt8) (ourMac : Mac) : Bool :=
  (ctrlParse frame).kind ≠ .none ∧ (ctrlParse frame).src ≠ ourMac ∧
    ((ctrlParse frame).kind = .filler ∨ checksumVerify frame) ∧ declOf frame ≠ none

section Sightings

variable {frame : List UInt8}

theorem discoClassify_eq (frame : List UInt8) (ourMac : Mac) :
    discoClassify frame ourMac =
      if (ctrlParse frame).kind ≠ .none ∧ (ctrlParse frame).src ≠ ourMac ∧
        ((ctrlParse frame).kind = .filler ∨ checksumVerify frame = true) then
        some (sightingOf (ctrlParse frame) frame)
      else none := by
  unfold discoClassify classifyCore
  by_cases hnone : (ctrlParse frame).kind = .none
  · simp [hnone]
  by_cases hsrc : (ctrlParse frame).src = ourMac
  · simp [hnone, hsrc]
  by_cases hfill : (ctrlParse frame).kind = .filler
  · simp [hsrc, hfill]
  · cases hck : checksumVerify frame <;> simp [hnone, hsrc, hfill]

/-- The sighting of a frame has a declaration exactly when the discovery reads one. -/
theorem sightingReads_iff (frame : List UInt8) (ourMac : Mac) :
    sightingReads frame ourMac = true ↔ ∃ sg, discoClassify frame ourMac = some sg ∧ sg.decl ≠ none := by
  rw [discoClassify_eq]
  simp only [sightingReads, decide_eq_true_eq]
  constructor
  · rintro ⟨hk, hsrc, hck, hdecl⟩
    exact ⟨_, if_pos ⟨hk, hsrc, hck⟩, hdecl⟩
  · rintro ⟨sg, hsg, hdecl⟩
    rw [Option.ite_none_right_eq_some] at hsg
    obtain ⟨⟨hk, hsrc, hck⟩, hsg⟩ := hsg
    rw [← Option.some.inj hsg] at hdecl
    exact ⟨hk, hsrc, hck, hdecl⟩

theorem declOf_portTable (h : declOf frame ≠ none) : hasPortTable frame = true := by
  by_cases hlen : 50 ≤ frame.length
  · cases hports : portsParse frame with
    | none => simp [declOf, hlen, hports] at h
    | some ports => simp [hasPortTable, hlen, hports]
  · simp [declOf, hlen] at h

theorem sightingReads_declaration {ourMac : Mac} (h : sightingReads frame ourMac = true) :
    isDeclaration frame = true ↔ isCdea frame = true := by
  obtain ⟨hk, -, hck, hdecl⟩ : (ctrlParse frame).kind ≠ .none ∧ (ctrlParse frame).src ≠ ourMac ∧
      ((ctrlParse frame).kind = .filler ∨ checksumVerify frame = true) ∧ declOf frame ≠ none := by
    simpa [sightingReads] using h
  exact isDeclaration_iff (declOf_portTable hdecl) hk fun hf => hck.resolve_left hf

end Sightings

/-! ## The tap -/

/-- The stream a frame is taken into: that of its source, or the one it opens. A repeated frame and a
new source in a full roster are taken into none. -/
def TapSurvey.heard (s : TapSurvey) (frame : List UInt8) : Option TapStream :=
  let st := s.streams.find (macAt frame 6)
  if upstreamChannels frame.length = 0 then st
  else if s.repeats frame then none
  else st.or (if s.streams.full then none else some (tapStreamOf frame))

/-- The source has been marked announced. -/
def TapSurvey.announcedBy (s : TapSurvey) (src : Mac) : Bool :=
  (s.streams.find src).any (·.announced)

/-- What the stream of the source is taken for. -/
def TapSurvey.kindOf (s : TapSurvey) (src : Mac) : Option TapStreamKind :=
  (s.streams.find src).map (·.kind)

/-- The frame marks its source announced. -/
def tapMarks (s : TapSurvey) (bytes : List UInt8) (ts : ℕ) : Prop :=
  let src := macAt (cleanFrame bytes) 6
  s.announcedBy src = false ∧ (surveyFrame s bytes ts).1.announcedBy src = true

/-- The frame is sighted with a declaration, and its stream, held until now, becomes a box's. -/
def tapResolves (s : TapSurvey) (bytes : List UInt8) (ts : ℕ) : Prop :=
  let frame := cleanFrame bytes
  (∃ st, s.heard frame = some st ∧ st.kind = .unresolved) ∧
    (∃ sg, discoClassify frame (s.selfMac.getD noMac) = some sg ∧ sg.decl ≠ none) ∧
    (surveyFrame s bytes ts).1.kindOf (macAt frame 6) = some .box

/-- The survey takes the frame into a stream that is not announced yet or is still held, and its
block reads as a port table. -/
def tapReads (s : TapSurvey) (bytes : List UInt8) : Bool :=
  let frame := cleanFrame bytes
  frameIsReac bytes ∧ s.selfMac ≠ some (macAt frame 6) ∧ (s.heard frame).any fun st =>
    (!st.announced && hasPortTable frame) ||
      (st.kind = .unresolved && sightingReads frame (s.selfMac.getD noMac))

section Streams

variable {st : TapStream} {frame : List UInt8} {selfMac : Option Mac}

theorem noteModel_facts (st : TapStream) (frame : List UInt8) :
    (noteModel st frame).announced = (st.announced || hasPortTable frame) ∧
      (noteModel st frame).kind = st.kind := by
  unfold noteModel
  by_cases hskip : st.announced = true ∨ frame.length < 50
  · rw [if_pos hskip]
    refine ⟨?_, rfl⟩
    rcases hskip with h | h
    · simp [h]
    · simp [hasPortTable, Nat.not_le.mpr h]
  · rw [if_neg hskip]
    push Not at hskip
    cases hports : portsParse frame with
    | none => simp [hasPortTable, hports]
    | some ports => simp [hasPortTable, hports, hskip.2]

theorem resolveByRole_facts (selfMac : Option Mac) (st : TapStream) (frame : List UInt8) :
    (resolveByRole selfMac st frame).announced = st.announced ∧
      (st.kind = .unresolved → sightingReads frame (selfMac.getD noMac) = true →
        (resolveByRole selfMac st frame).kind = .box) := by
  unfold resolveByRole
  by_cases hheld : st.kind ≠ .unresolved
  · rw [if_pos hheld]
    exact ⟨rfl, fun h => absurd h hheld⟩
  · rw [if_neg hheld]
    constructor
    · split
      · rfl
      · split_ifs <;> rfl
    · intro _ hreads
      obtain ⟨sg, hsg, hdecl⟩ := (sightingReads_iff frame _).mp hreads
      simp [hsg, hdecl]

theorem resolveByFrames_facts (st : TapStream) :
    (resolveByFrames st).announced = st.announced ∧
      (st.kind = .box → (resolveByFrames st).kind = .box) := by
  unfold resolveByFrames
  dsimp only
  generalize (if 0 < st.fps then masterOnlyCadenceFrames st.fps else 8000) = window
  split_ifs
  · exact ⟨rfl, fun _ => rfl⟩
  · exact ⟨rfl, fun h => h⟩

theorem identify_facts (selfMac : Option Mac) (st : TapStream) (frame : List UInt8) :
    (st.identify selfMac frame).announced = (st.announced || hasPortTable frame) ∧
      (st.kind = .unresolved → sightingReads frame (selfMac.getD noMac) = true →
        (st.identify selfMac frame).kind = .box) := by
  obtain ⟨hann, hkind⟩ := noteModel_facts st frame
  obtain ⟨hann', hkind'⟩ := resolveByRole_facts selfMac (noteModel st frame) frame
  exact ⟨hann'.trans hann, fun h => hkind' (hkind.trans h)⟩

theorem take_facts (selfMac : Option Mac) (st : TapStream) (frame : List UInt8) (ts : ℕ) :
    (st.take selfMac frame ts).announced = (st.announced || hasPortTable frame) ∧
      (st.kind = .unresolved → sightingReads frame (selfMac.getD noMac) = true →
        (st.take selfMac frame ts).kind = .box) := by
  obtain ⟨hann, hkind⟩ := identify_facts selfMac (st.count frame ts) frame
  obtain ⟨hann', hkind'⟩ := resolveByFrames_facts ((st.count frame ts).identify selfMac frame)
  exact ⟨hann'.trans hann, fun h hreads => hkind' (hkind h hreads)⟩

end Streams

section Survey

variable {s : TapSurvey} {bytes : List UInt8}

theorem streamFor_known {t : TapStream} (h : s.streams.find t.src ≠ none) : streamFor s t = some s :=
  dif_neg h

theorem streamFor_new {t : TapStream} (hnew : s.streams.find t.src = none)
    (hroom : s.streams.full = false) :
    ∃ s', streamFor s t = some s' ∧ s'.streams.find t.src = some t ∧ s'.selfMac = s.selfMac := by
  unfold streamFor
  rw [dif_pos hnew, dif_neg (by simp [hroom])]
  refine ⟨_, rfl, ?_, rfl⟩
  rw [Roster.find_insert, if_pos rfl]

theorem streamFor_full {t : TapStream} (hnew : s.streams.find t.src = none)
    (hfull : s.streams.full = true) : streamFor s t = none := by
  unfold streamFor
  rw [dif_pos hnew, dif_pos hfull]

theorem find_update_self {src : Mac} {st : TapStream} (hst : s.streams.find src = some st)
    (f : TapStream → TapStream) (hf : ∀ st, (f st).src = st.src) :
    (s.streams.update src f hf).find src = some (f st) := by
  rw [Roster.find_update, if_pos rfl, hst]
  rfl

theorem surveyStream_find {frame : List UInt8} (ts : ℕ) {st : TapStream}
    (hst : s.streams.find (macAt frame 6) = some st) (hprev : st.prev ≠ some frame) :
    (surveyStream s frame ts).1.streams.find (macAt frame 6) = some (st.take s.selfMac frame ts) := by
  have hrep : s.repeats frame = false := by simp [TapSurvey.repeats, hst, hprev]
  unfold surveyStream
  simp only [hrep, Bool.false_eq_true, if_false]
  exact find_update_self hst _ _

/-- What the survey makes of a frame it takes into a stream. -/
theorem surveyFrame_heard (ts : ℕ) (hreac : frameIsReac bytes = true)
    (hself : s.selfMac ≠ some (macAt (cleanFrame bytes) 6)) {st : TapStream}
    (hst : s.heard (cleanFrame bytes) = some st) :
    ∃ st', (surveyFrame s bytes ts).1.streams.find (macAt (cleanFrame bytes) 6) = some st' ∧
      st'.announced = (st.announced || hasPortTable (cleanFrame bytes)) ∧
      (st.kind = .unresolved →
        sightingReads (cleanFrame bytes) (s.selfMac.getD noMac) = true → st'.kind = .box) := by
  unfold TapSurvey.heard at hst
  unfold surveyFrame
  simp only [hreac, Bool.not_true, Bool.false_eq_true, if_false, hself]
  by_cases hw : upstreamChannels (cleanFrame bytes).length = 0
  · simp only [hw, if_true] at hst ⊢
    exact ⟨_, find_update_self hst _ _, identify_facts s.selfMac st (cleanFrame bytes)⟩
  · simp only [hw, if_false, Option.ite_none_left_eq_some] at hst ⊢
    obtain ⟨hrep, hst⟩ := hst
    cases hfind : s.streams.find (macAt (cleanFrame bytes) 6) with
    | some st₀ =>
      rw [hfind, Option.some_or] at hst
      obtain rfl := Option.some.inj hst
      have hprev : st₀.prev ≠ some (cleanFrame bytes) := by
        simpa [TapSurvey.repeats, hfind] using hrep
      rw [streamFor_known (t := tapStreamOf (cleanFrame bytes)) (by simp [tapStreamOf, hfind])]
      exact ⟨_, surveyStream_find ts hfind hprev, take_facts s.selfMac st₀ (cleanFrame bytes) ts⟩
    | none =>
      rw [hfind, Option.none_or, Option.ite_none_left_eq_some] at hst
      obtain ⟨hfull, hst⟩ := hst
      obtain rfl := Option.some.inj hst
      obtain ⟨s', hopen, hst', hself'⟩ := streamFor_new
        (s := { s with framesSeen := s.framesSeen + 1 }) (t := tapStreamOf (cleanFrame bytes)) hfind
        (by simpa using hfull)
      rw [hopen]
      refine ⟨_, surveyStream_find ts hst' nofun, ?_⟩
      rw [hself']
      exact take_facts s.selfMac _ (cleanFrame bytes) ts

/-- A frame that is taken into no stream marks and resolves none. -/
theorem surveyFrame_unheard (ts : ℕ) (h : frameIsReac bytes = false ∨
      s.selfMac = some (macAt (cleanFrame bytes) 6) ∨ s.heard (cleanFrame bytes) = none) :
    let src := macAt (cleanFrame bytes) 6
    (surveyFrame s bytes ts).1.announcedBy src = s.announcedBy src ∧
      (surveyFrame s bytes ts).1.kindOf src = s.kindOf src := by
  dsimp only
  unfold surveyFrame
  by_cases hreac : frameIsReac bytes = true
  case neg => simp [hreac]
  by_cases hself : s.selfMac = some (macAt (cleanFrame bytes) 6)
  · simp only [hreac, hself, Bool.not_true, Bool.false_eq_true, if_false, if_true]
    exact ⟨rfl, rfl⟩
  have hnone : s.heard (cleanFrame bytes) = none := by
    rcases h with h | h | h
    · simp [hreac] at h
    · exact absurd h hself
    · exact h
  unfold TapSurvey.heard at hnone
  simp only [hreac, Bool.not_true, Bool.false_eq_true, if_false, hself]
  by_cases hw : upstreamChannels (cleanFrame bytes).length = 0
  · simp only [hw, if_true] at hnone ⊢
    simp [TapSurvey.announcedBy, TapSurvey.kindOf, Roster.find_update, hnone]
  · simp only [hw, if_false] at hnone ⊢
    by_cases hrep : s.repeats (cleanFrame bytes) = true
    · -- A mirror twin is only counted.
      have hsome : s.streams.find (macAt (cleanFrame bytes) 6) ≠ none := by
        intro hfind
        simp [TapSurvey.repeats, hfind] at hrep
      have hrep' : TapSurvey.repeats { s with framesSeen := s.framesSeen + 1 } (cleanFrame bytes) = true :=
        hrep
      rw [streamFor_known (s := { s with framesSeen := s.framesSeen + 1 })
        (t := tapStreamOf (cleanFrame bytes)) hsome]
      simp only [surveyStream, hrep', if_true, TapSurvey.announcedBy, TapSurvey.kindOf,
        Roster.find_update]
      cases s.streams.find (macAt (cleanFrame bytes) 6) <;> exact ⟨rfl, rfl⟩
    · rw [if_neg hrep, Option.or_eq_none_iff] at hnone
      obtain ⟨hfind, hfull⟩ := hnone
      have hfull' : s.streams.full = true := by
        by_contra hroom
        simp [hroom] at hfull
      rw [streamFor_full (s := { s with framesSeen := s.framesSeen + 1 })
        (t := tapStreamOf (cleanFrame bytes)) hfind hfull']
      exact ⟨rfl, rfl⟩

theorem heard_find {frame : List UInt8} {st : TapStream} (h : s.heard frame = some st) :
    s.streams.find (macAt frame 6) = some st ∨
      s.streams.find (macAt frame 6) = none ∧ st.announced = false := by
  unfold TapSurvey.heard at h
  cases hfind : s.streams.find (macAt frame 6) with
  | some st₀ =>
    simp only [hfind, Option.some_or] at h
    left
    split_ifs at h
    · exact h
    · exact h
  | none =>
    simp only [hfind, Option.none_or] at h
    right
    split_ifs at h
    rw [← Option.some.inj h]
    exact ⟨rfl, rfl⟩

/-- What the survey knew of the source before. -/
theorem heard_facts {frame : List UInt8} {st : TapStream} (h : s.heard frame = some st) :
    s.announcedBy (macAt frame 6) = st.announced ∧
      (st.kind = .unresolved → s.kindOf (macAt frame 6) ≠ some .box) := by
  unfold TapSurvey.announcedBy TapSurvey.kindOf
  rcases heard_find h with hfind | ⟨hfind, hnot⟩
  · refine ⟨by simp [hfind], ?_⟩
    intro hheld
    simp [hfind, hheld]
  · exact ⟨by simp [hfind, hnot], fun _ => by simp [hfind]⟩

/-- A frame marks or resolves a stream by its port table exactly when the survey reads it. -/
theorem tapReads_iff (s : TapSurvey) (bytes : List UInt8) (ts : ℕ) :
    tapReads s bytes = true ↔ tapMarks s bytes ts ∨ tapResolves s bytes ts := by
  unfold tapReads tapMarks tapResolves
  simp only [decide_eq_true_eq, Option.any_eq_true, Bool.or_eq_true, Bool.and_eq_true,
    Bool.not_eq_true']
  constructor
  · rintro ⟨hreac, hself, st, hst, hread⟩
    obtain ⟨st', hfind, hann, hkind⟩ := surveyFrame_heard ts hreac hself hst
    rcases hread with ⟨hnot, htable⟩ | ⟨hheld, hreads⟩
    · left
      refine ⟨(heard_facts hst).1.trans hnot, ?_⟩
      simp [TapSurvey.announcedBy, hfind, hann, htable]
    · right
      refine ⟨⟨st, hst, hheld⟩, (sightingReads_iff _ _).mp hreads, ?_⟩
      simp [TapSurvey.kindOf, hfind, hkind hheld hreads]
  · intro h
    -- Only a frame that is taken into a stream changes what is known of it.
    have htaken : frameIsReac bytes = true ∧ s.selfMac ≠ some (macAt (cleanFrame bytes) 6) ∧
        ∃ st, s.heard (cleanFrame bytes) = some st := by
      by_contra hn
      have hout : frameIsReac bytes = false ∨ s.selfMac = some (macAt (cleanFrame bytes) 6) ∨
          s.heard (cleanFrame bytes) = none := by
        by_cases hreac : frameIsReac bytes = true
        · by_cases hself : s.selfMac = some (macAt (cleanFrame bytes) 6)
          · exact .inr (.inl hself)
          · cases hst : s.heard (cleanFrame bytes) with
            | none => exact .inr (.inr rfl)
            | some st => exact absurd ⟨hreac, hself, st, hst⟩ hn
        · exact .inl (by simpa using hreac)
      obtain ⟨hann, hkind⟩ := surveyFrame_unheard ts hout
      rcases h with ⟨hbefore, hafter⟩ | ⟨⟨st, hst, hheld⟩, -, hafter⟩
      · rw [hann, hbefore] at hafter
        cases hafter
      · rw [hkind] at hafter
        exact (heard_facts hst).2 hheld hafter
    obtain ⟨hreac, hself, st, hst⟩ := htaken
    refine ⟨hreac, hself, st, hst, ?_⟩
    obtain ⟨st', hfind, hann, -⟩ := surveyFrame_heard ts hreac hself hst
    rcases h with ⟨hbefore, hafter⟩ | ⟨⟨st₀, hst₀, hheld⟩, hsight, -⟩
    · left
      rw [(heard_facts hst).1] at hbefore
      simp only [TapSurvey.announcedBy, hfind, Option.any_some, hann, hbefore, Bool.false_or] at hafter
      exact ⟨hbefore, hafter⟩
    · right
      rw [hst] at hst₀
      obtain rfl := Option.some.inj hst₀
      exact ⟨hheld, (sightingReads_iff _ _).mpr hsight⟩

end Survey

theorem tapReads_declaration {s : TapSurvey} {bytes : List UInt8} (h : tapReads s bytes = true) :
    isDeclaration (cleanFrame bytes) = true ↔ isCdea bytes = true ∧ checksumVerify bytes = true := by
  have hcd : isCdea (cleanFrame bytes) = isCdea bytes := by
    simp [isCdea, byteAt_cleanFrame bytes (show 16 < 52 by omega),
      byteAt_cleanFrame bytes (show 17 < 52 by omega)]
  obtain ⟨hreac, -, st, -, hread⟩ : frameIsReac bytes = true ∧
      s.selfMac ≠ some (macAt (cleanFrame bytes) 6) ∧ ∃ st, s.heard (cleanFrame bytes) = some st ∧
      (st.announced = false ∧ hasPortTable (cleanFrame bytes) = true ∨
        st.kind = .unresolved ∧ sightingReads (cleanFrame bytes) (s.selfMac.getD noMac) = true) := by
    simpa [tapReads, Option.any_eq_true] using h
  have htable : hasPortTable (cleanFrame bytes) = true := by
    rcases hread with ⟨-, htable⟩ | ⟨-, hreads⟩
    · exact htable
    · simp only [sightingReads, decide_eq_true_eq] at hreads
      exact declOf_portTable hreads.2.2.2
  obtain ⟨-, h12, h13⟩ : 14 ≤ bytes.length ∧ byteAt bytes 12 = 0x88 ∧ byteAt bytes 13 = 0x19 := by
    simpa [frameIsReac] using hreac
  rw [← byteAt_cleanFrame bytes (by omega)] at h12 h13
  have hkind := hasPortTable_kind htable h12 h13
  rw [hcd] at hkind
  rw [← hkind, ← checksumVerify_cleanFrame bytes]
  simp [isDeclaration]

/-! ## The three doors -/

/-- At each door of the frame only a verified declaration is read as one. -/
structure GeometryVerified (p : Pacer) (ourMac : Mac) (s : TapSurvey) (ts : ℕ) (frame : List UInt8) :
    Prop where
  pacer : pacerDeclares p frame = true → isDeclaration (cleanFrame frame) = true
  sighting : ∀ sg, discoClassify frame ourMac = some sg → sg.decl ≠ none → isDeclaration frame = true
  marked : tapMarks s frame ts → isDeclaration (cleanFrame frame) = true
  resolved : tapResolves s frame ts → isDeclaration (cleanFrame frame) = true

/-- No door reads a port table under another type word, and the tap none that is corrupt. -/
structure NoStrayTable (p : Pacer) (ourMac : Mac) (s : TapSurvey) (frame : List UInt8) : Prop where
  pacer : (p.takes frame).isSome = true → p.setsGeometry (cleanFrame frame) = true → isCdea frame = true
  sighting : sightingReads frame ourMac = true → isCdea frame = true
  tap : tapReads s frame = true → isCdea frame = true ∧ checksumVerify frame = true

theorem geometry_verified_iff (p : Pacer) (ourMac : Mac) (s : TapSurvey) (ts : ℕ)
    (frame : List UInt8) :
    GeometryVerified p ourMac s ts frame ↔ NoStrayTable p ourMac s frame := by
  constructor
  · intro h
    refine ⟨?_, ?_, ?_⟩
    · intro htakes hsets
      have hdeclares : pacerDeclares p frame = true := by simp [pacerDeclares, htakes, hsets]
      exact (pacerDeclares_iff hdeclares).mp (h.pacer hdeclares)
    · intro hreads
      obtain ⟨sg, hsg, hdecl⟩ := (sightingReads_iff frame ourMac).mp hreads
      exact (sightingReads_declaration hreads).mp (h.sighting sg hsg hdecl)
    · intro hreads
      apply (tapReads_declaration hreads).mp
      rcases (tapReads_iff s frame ts).mp hreads with hmarks | hresolves
      · exact h.marked hmarks
      · exact h.resolved hresolves
  · intro h
    have htap : tapReads s frame = true → isDeclaration (cleanFrame frame) = true :=
      fun hreads => (tapReads_declaration hreads).mpr (h.tap hreads)
    refine ⟨?_, ?_, ?_, ?_⟩
    · intro hdeclares
      apply (pacerDeclares_iff hdeclares).mpr
      simp only [pacerDeclares, Bool.and_eq_true] at hdeclares
      exact h.pacer hdeclares.1 hdeclares.2
    · intro sg hsg hdecl
      have hreads := (sightingReads_iff frame ourMac).mpr ⟨sg, hsg, hdecl⟩
      exact (sightingReads_declaration hreads).mpr (h.sighting hreads)
    · intro hmarks
      exact htap ((tapReads_iff s frame ts).mpr (.inl hmarks))
    · intro hresolves
      exact htap ((tapReads_iff s frame ts).mpr (.inr hresolves))

/-- A presence flood whose exempt block happens to read as eight inputs. -/
def strayFiller : List UInt8 :=
  broadcastMac.toList ++ stageBox.toList ++ [0x88, 0x19, 0x00, 0x00, 0x00, 0x00] ++
    [0x01, 0x03, 0x00, 0x00, 0x84, 0x00, 0x00, 0x00, 0x02, 0x02] ++ List.replicate 10 0x03 ++
    List.replicate 12 0x00 ++ List.replicate 72 0x00 ++ [0xc2, 0xea]

/-- All three doors read the FILLER as a declaration. -/
theorem stray_filler_declares :
    (ctrlParse strayFiller).kind = .filler ∧ pacerDeclares (pacerOpen deskEnv deskCfg) strayFiller = true ∧
      (rxIngest deskEnv (pacerOpen deskEnv deskCfg) strayFiller).1.declaredIn = 8 ∧
      (discoClassify strayFiller deskMac).map (·.decl) = some (some (8, 0)) ∧
      (surveyFrame {} strayFiller 0).1.announcedBy stageBox = true ∧
      (surveyFrame {} strayFiller 0).1.kindOf stageBox = some .box ∧
      ¬ GeometryVerified (pacerOpen deskEnv deskCfg) deskMac {} 0 strayFiller := by
  have hdecl : pacerDeclares (pacerOpen deskEnv deskCfg) strayFiller = true := by decide +kernel
  refine ⟨by decide +kernel, hdecl, by decide +kernel, by decide +kernel, by decide +kernel,
    by decide +kernel, ?_⟩
  intro h
  exact absurd (h.pacer hdecl) (by decide +kernel)

end Libreac
