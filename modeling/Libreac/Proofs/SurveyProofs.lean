import Libreac.Proofs.GeometryProofs
import Libreac.Proofs.RxProofs

/-!
# Proofs: the accounts of the tap's survey

A call of the survey touches the stream of one source and looks at no other (`surveyFrame_view`), so
everything is said for each source on its own. A mirror copy finds its frame as the last one of its
stream and is counted there; a stream's frames and gaps add up to what its sender has sent since it was
first heard.
-/

namespace Libreac

open Reactive.Machine (Offered)

/-! ## One source at a time -/

/-- The frame is one the survey looks at: a REAC frame that is not our own. -/
def TapSurvey.hears (s : TapSurvey) (bytes : List UInt8) : Prop :=
  frameIsReac bytes = true ∧ s.selfMac ≠ some (macAt (cleanFrame bytes) 6)

/-- What a frame makes of the stream of its source. -/
def nextStream (selfMac : Option Mac) (full : Bool) (frame : List UInt8) (ts : ℕ) :
    Option TapStream → Option TapStream
  | some st =>
    if upstreamChannels frame.length = 0 then some (st.identify selfMac frame)
    else if st.prev = some frame then some { st with dups := st.dups + 1 }
    else some (st.take selfMac frame ts)
  | none =>
    if upstreamChannels frame.length = 0 ∨ full = true then none
    else some ((tapStreamOf frame).take selfMac frame ts)

section View

variable {s : TapSurvey} {bytes frame : List UInt8}

theorem update_keys (s : TapSurvey) (src : Mac) (f : TapStream → TapStream)
    (hf : ∀ st, (f st).src = st.src) :
    (s.streams.update src f hf).entries.map TapStream.src = s.streams.entries.map TapStream.src := by
  simp only [Roster.update, List.map_map]
  refine List.map_congr_left fun st _ => ?_
  dsimp only [Function.comp]
  split_ifs
  · exact hf st
  · rfl

/-- A frame with audio, in the survey that holds its stream. -/
theorem surveyStream_view (s : TapSurvey) (frame : List UInt8) (ts : ℕ)
    (hw : upstreamChannels frame.length ≠ 0) (hknown : s.streams.find (macAt frame 6) ≠ none) :
    (surveyStream s frame ts).1.selfMac = s.selfMac ∧
      (∀ k, (surveyStream s frame ts).1.streams.find k =
        if k = macAt frame 6 then
          nextStream s.selfMac s.streams.full frame ts (s.streams.find (macAt frame 6))
        else s.streams.find k) ∧
      (surveyStream s frame ts).1.streams.entries.map TapStream.src =
        s.streams.entries.map TapStream.src := by
  cases hfind : s.streams.find (macAt frame 6) with
  | none => exact absurd hfind hknown
  | some st =>
    by_cases hprev : st.prev = some frame
    · have hrep : s.repeats frame = true := by simp [TapSurvey.repeats, hfind, hprev]
      simp only [surveyStream, hrep, if_true, true_and]
      refine ⟨?_, update_keys s _ _ _⟩
      intro k
      rw [Roster.find_update]
      by_cases hk : k = macAt frame 6
      · rw [if_pos hk, if_pos hk, hk, hfind]
        simp only [nextStream, hw, hprev, if_false, if_true, Option.map_some]
      · rw [if_neg hk, if_neg hk]
    · have hrep : s.repeats frame = false := by simp [TapSurvey.repeats, hfind, hprev]
      simp only [surveyStream, hrep, Bool.false_eq_true, if_false, true_and]
      refine ⟨?_, update_keys s _ _ _⟩
      intro k
      rw [Roster.find_update]
      by_cases hk : k = macAt frame 6
      · rw [if_pos hk, if_pos hk, hk, hfind]
        simp only [nextStream, hw, hprev, if_false, Option.map_some]
      · rw [if_neg hk, if_neg hk]

/-- What a frame does to the survey, source by source. -/
theorem surveyFrame_view (s : TapSurvey) (bytes : List UInt8) (ts : ℕ) :
    let frame := cleanFrame bytes
    let src := macAt frame 6
    (surveyFrame s bytes ts).1.selfMac = s.selfMac ∧
      (∀ k, (s.hears bytes ∧ k = src →
          (surveyFrame s bytes ts).1.streams.find k =
            nextStream s.selfMac s.streams.full frame ts (s.streams.find k)) ∧
        (¬ (s.hears bytes ∧ k = src) →
          (surveyFrame s bytes ts).1.streams.find k = s.streams.find k)) ∧
      ((surveyFrame s bytes ts).1.streams.entries.map TapStream.src =
          s.streams.entries.map TapStream.src ∨
        (surveyFrame s bytes ts).1.streams.entries.map TapStream.src =
            s.streams.entries.map TapStream.src ++ [src] ∧
          s.hears bytes ∧ upstreamChannels frame.length ≠ 0 ∧ s.streams.find src = none ∧
          s.streams.full = false) := by
  intro frame src
  unfold surveyFrame
  by_cases hreac : frameIsReac bytes = true
  case neg =>
    have hno : ¬ s.hears bytes := fun h => hreac h.1
    rw [Bool.not_eq_true] at hreac
    rw [hreac]
    exact ⟨rfl, fun k => ⟨fun h => absurd h.1 hno, fun _ => rfl⟩, .inl rfl⟩
  simp only [hreac, Bool.not_true, Bool.false_eq_true, if_false]
  by_cases hself : s.selfMac = some src
  · have hno : ¬ s.hears bytes := fun h => h.2 hself
    rw [if_pos hself]
    exact ⟨rfl, fun k => ⟨fun h => absurd h.1 hno, fun _ => rfl⟩, .inl rfl⟩
  have hhears : s.hears bytes := ⟨hreac, hself⟩
  rw [if_neg hself]
  by_cases hw : upstreamChannels frame.length = 0
  · rw [if_pos hw]
    refine ⟨rfl, ?_, .inl (update_keys _ _ _ (by simp))⟩
    intro k
    refine ⟨?_, ?_⟩
    · rintro ⟨-, rfl⟩
      rw [Roster.find_update, if_pos rfl]
      show (s.streams.find src).map _ = _
      cases s.streams.find src with
      | none => simp only [nextStream, hw, true_or, if_true, Option.map_none]
      | some st =>
        simp only [nextStream, hw, if_true, Option.map_some]
        rfl
    · intro hk
      rw [Roster.find_update, if_neg fun h => hk ⟨hhears, h⟩]
  rw [if_neg hw]
  have hsrc : (tapStreamOf frame).src = src := rfl
  cases hfind : s.streams.find src with
  | some st =>
    have hopen := streamFor_known (s := { s with framesSeen := s.framesSeen + 1 })
      (t := tapStreamOf frame) (by rw [hsrc]; show s.streams.find src ≠ none; rw [hfind]; simp)
    rw [hopen]
    obtain ⟨hself', hfind', hkeys⟩ := surveyStream_view { s with framesSeen := s.framesSeen + 1 } frame ts
      hw (by show s.streams.find src ≠ none; rw [hfind]; simp)
    refine ⟨hself', ?_, .inl hkeys⟩
    intro k
    refine ⟨?_, ?_⟩
    · rintro ⟨-, rfl⟩
      exact (hfind' src).trans (if_pos rfl)
    · intro hk
      exact (hfind' k).trans (if_neg fun h => hk ⟨hhears, h⟩)
  | none =>
    cases hfull : s.streams.full with
    | true =>
      have hopen := streamFor_full (s := { s with framesSeen := s.framesSeen + 1 })
        (t := tapStreamOf frame) hfind hfull
      rw [hopen]
      refine ⟨rfl, ?_, .inl rfl⟩
      intro k
      refine ⟨?_, fun _ => rfl⟩
      rintro ⟨-, rfl⟩
      show s.streams.find src = _
      rw [hfind]
      simp only [nextStream, or_true, if_true]
    | false =>
      unfold streamFor
      rw [dif_pos (show s.streams.find (tapStreamOf frame).src = none from hfind),
        dif_neg (by rw [hfull]; simp)]
      have hinsert : ∀ k, (s.streams.insert (tapStreamOf frame) hfind hfull).find k =
          if k = src then some (tapStreamOf frame) else s.streams.find k :=
        fun k => Roster.find_insert _ _ _ _ k
      obtain ⟨hself', hfind', hkeys⟩ := surveyStream_view
        { s with
          framesSeen := s.framesSeen + 1, streams := s.streams.insert (tapStreamOf frame) hfind hfull }
        frame ts hw (by rw [hinsert src, if_pos rfl]; simp)
      refine ⟨hself', ?_, .inr ⟨?_, hhears, hw, rfl, rfl⟩⟩
      · intro k
        refine ⟨?_, ?_⟩
        · rintro ⟨-, rfl⟩
          refine (hfind' src).trans ?_
          rw [if_pos rfl]
          show nextStream _ _ _ _ ((s.streams.insert (tapStreamOf frame) hfind hfull).find src) = _
          rw [hinsert src, if_pos rfl, hfind]
          have hprev : (tapStreamOf frame).prev ≠ some frame := Option.some_ne_none frame |>.symm
          simp only [nextStream, hw, hprev, if_false, Bool.false_eq_true, or_self]
        · intro hk
          have hne : k ≠ src := fun h => hk ⟨hhears, h⟩
          refine (hfind' k).trans ?_
          rw [if_neg hne]
          exact (hinsert k).trans (if_neg hne)
      · refine hkeys.trans ?_
        simp only [Roster.insert, List.map_append, List.map_singleton, hsrc]

theorem surveyResolve_find (s : TapSurvey) (now : ℕ) (k : Mac) :
    (surveyResolve s now).1.streams.find k = (s.streams.find k).map (resolveByTime now) :=
  Roster.find_mapAll _ _ (by simp) k

theorem surveyResolve_keys (s : TapSurvey) (now : ℕ) :
    (surveyResolve s now).1.streams.entries.map TapStream.src =
      s.streams.entries.map TapStream.src := by
  simp [surveyResolve, Roster.mapAll, Function.comp_def]

/-- Streams are never given up. -/
theorem tapStep_full {i : TapInput} (h : s.streams.full = true) : (tapStep s i).1.streams.full = true := by
  have hlen : s.streams.entries.length ≤ (tapStep s i).1.streams.entries.length := by
    have hmap : ∀ s : TapSurvey, s.streams.entries.length = (s.streams.entries.map TapStream.src).length := by
      intro s
      rw [List.length_map]
    rw [hmap, hmap (tapStep s i).1]
    cases i with
    | resolve now =>
      simp only [tapStep]
      rw [surveyResolve_keys]
    | frame bytes ts =>
      simp only [tapStep]
      rcases (surveyFrame_view s bytes ts).2.2 with hkeys | ⟨hkeys, -⟩
      · rw [hkeys]
      · rw [hkeys, List.length_append]
        omega
  have hcap := of_decide_eq_true h
  exact decide_eq_true (by omega)

end View

/-! ## Copies do not matter -/

/-- The stream without its count of copies. -/
def TapStream.undup (st : TapStream) : TapStream := { st with dups := 0 }

@[simp] theorem undup_kind (st : TapStream) : st.undup.kind = st.kind := rfl

@[simp] theorem undup_announced (st : TapStream) : st.undup.announced = st.announced := rfl

@[simp] theorem undup_prev (st : TapStream) : st.undup.prev = st.prev := rfl

@[simp] theorem undup_firstTs (st : TapStream) : st.undup.firstTs = st.firstTs := rfl

@[simp] theorem undup_advance (st : TapStream) : st.undup.frames + st.undup.gaps = st.frames + st.gaps := rfl

@[simp] theorem undup_fps (st : TapStream) : st.undup.fps = st.fps := rfl

section Undup

variable (selfMac : Option Mac) (st : TapStream) (frame : List UInt8)

theorem noteModel_undup : noteModel st.undup frame = (noteModel st frame).undup := by
  unfold noteModel
  rw [undup_announced]
  by_cases hskip : st.announced = true ∨ frame.length < 50
  · rw [if_pos hskip, if_pos hskip]
  · rw [if_neg hskip, if_neg hskip]
    cases portsParse frame <;> rfl

theorem resolveByRole_undup :
    resolveByRole selfMac st.undup frame = (resolveByRole selfMac st frame).undup := by
  unfold resolveByRole
  rw [undup_kind, undup_announced]
  by_cases hheld : st.kind ≠ .unresolved
  · rw [if_pos hheld, if_pos hheld]
  · rw [if_neg hheld, if_neg hheld]
    cases discoClassify frame (selfMac.getD noMac) with
    | none => rfl
    | some sg =>
      dsimp only
      split_ifs <;> rfl

theorem resolveByFrames_undup : resolveByFrames st.undup = (resolveByFrames st).undup := by
  unfold resolveByFrames
  rw [undup_fps]
  generalize (if 0 < st.fps then masterOnlyCadenceFrames st.fps else 8000) = window
  dsimp only
  rw [undup_kind, undup_advance]
  split_ifs <;> rfl

theorem resolveByTime_undup (now : ℕ) : resolveByTime now st.undup = (resolveByTime now st).undup := by
  unfold resolveByTime
  rw [undup_fps, undup_kind, undup_firstTs]
  split_ifs <;> rfl

theorem identify_undup : st.undup.identify selfMac frame = (st.identify selfMac frame).undup := by
  rw [TapStream.identify, TapStream.identify, noteModel_undup, resolveByRole_undup]

theorem take_undup (ts : ℕ) : st.undup.take selfMac frame ts = (st.take selfMac frame ts).undup := by
  have hcount : st.undup.count frame ts = (st.count frame ts).undup := rfl
  rw [TapStream.take, TapStream.take, hcount, noteModel_undup, resolveByRole_undup,
    resolveByFrames_undup]

end Undup

theorem nextStream_undup (selfMac : Option Mac) (full : Bool) (frame : List UInt8) (ts : ℕ)
    {o o' : Option TapStream} (h : o'.map TapStream.undup = o.map TapStream.undup) :
    (nextStream selfMac full frame ts o').map TapStream.undup =
      (nextStream selfMac full frame ts o).map TapStream.undup := by
  have hnext : ∀ o, (nextStream selfMac full frame ts o).map TapStream.undup =
      (nextStream selfMac full frame ts (o.map TapStream.undup)).map TapStream.undup := by
    intro o
    cases o with
    | none => rfl
    | some st =>
      simp only [nextStream, Option.map_some, identify_undup, take_undup, undup_prev]
      split_ifs <;> rfl
  rw [hnext o', h, ← hnext o]

/-- Two surveys that differ in their counts only. -/
structure SameStreams (b t : TapSurvey) : Prop where
  selfMac : t.selfMac = b.selfMac
  keys : t.streams.entries.map TapStream.src = b.streams.entries.map TapStream.src
  find : ∀ k, (t.streams.find k).map TapStream.undup = (b.streams.find k).map TapStream.undup

theorem SameStreams.full {b t : TapSurvey} (h : SameStreams b t) : t.streams.full = b.streams.full := by
  have hlen := congrArg List.length h.keys
  rw [List.length_map, List.length_map] at hlen
  simp only [Roster.full, hlen]

theorem SameStreams.entries {b t : TapSurvey} (h : SameStreams b t) :
    t.streams.entries.map TapStream.undup = b.streams.entries.map TapStream.undup :=
  Roster.map_entries_eq TapStream.undup h.keys h.find

theorem SameStreams.step {b t : TapSurvey} (h : SameStreams b t) (i : TapInput) :
    SameStreams (tapStep b i).1 (tapStep t i).1 := by
  cases i with
  | resolve now =>
    refine ⟨h.selfMac, ?_, ?_⟩
    · simp only [tapStep]
      rw [surveyResolve_keys, surveyResolve_keys, h.keys]
    · intro k
      simp only [tapStep]
      rw [surveyResolve_find, surveyResolve_find]
      have hmap : ∀ o : Option TapStream, (o.map (resolveByTime now)).map TapStream.undup =
          (o.map TapStream.undup).map (resolveByTime now) := by
        intro o
        cases o with
        | none => rfl
        | some st => simp only [Option.map_some, resolveByTime_undup]
      rw [hmap, hmap, h.find]
  | frame bytes ts =>
    obtain ⟨hselfb, hfindb, hkeysb⟩ := surveyFrame_view b bytes ts
    obtain ⟨hselft, hfindt, hkeyst⟩ := surveyFrame_view t bytes ts
    have hhears : t.hears bytes ↔ b.hears bytes := by
      unfold TapSurvey.hears
      rw [h.selfMac]
    have hnone : ∀ k, t.streams.find k = none ↔ b.streams.find k = none := by
      intro k
      rw [← Option.map_eq_none_iff (f := TapStream.undup), h.find, Option.map_eq_none_iff]
    refine ⟨?_, ?_, ?_⟩
    · exact hselft.trans (h.selfMac.trans hselfb.symm)
    · simp only [tapStep]
      rcases hkeysb with hkeysb | ⟨hkeysb, hopen⟩
      · rcases hkeyst with hkeyst | ⟨hkeyst, hhear, hw, hfind, hfull⟩
        · rw [hkeyst, hkeysb, h.keys]
        · -- The second opens a stream: so does the first.
          rw [h.full] at hfull
          have hb := (hfindb (macAt (cleanFrame bytes) 6)).1 ⟨hhears.mp hhear, rfl⟩
          rw [(hnone _).mp hfind, nextStream, if_neg (by simp [hw, hfull])] at hb
          have hmem := (Roster.find_eq_none_iff _ _).mp ((hnone _).mp hfind)
          rw [← hkeysb, ← Roster.find_eq_none_iff, hb] at hmem
          cases hmem
      · rcases hkeyst with hkeyst | ⟨hkeyst, -⟩
        · obtain ⟨hhear, hw, hfind, hfull⟩ := hopen
          rw [← h.full] at hfull
          have ht := (hfindt (macAt (cleanFrame bytes) 6)).1 ⟨hhears.mpr hhear, rfl⟩
          rw [(hnone _).mpr hfind, nextStream, if_neg (by simp [hw, hfull])] at ht
          have hmem := (Roster.find_eq_none_iff _ _).mp ((hnone _).mpr hfind)
          rw [← hkeyst, ← Roster.find_eq_none_iff, ht] at hmem
          cases hmem
        · rw [hkeyst, hkeysb, h.keys]
    · intro k
      simp only [tapStep]
      by_cases hk : b.hears bytes ∧ k = macAt (cleanFrame bytes) 6
      · rw [(hfindb k).1 hk, (hfindt k).1 ⟨hhears.mpr hk.1, hk.2⟩, h.selfMac, h.full]
        exact nextStream_undup _ _ _ _ (h.find k)
      · rw [(hfindb k).2 hk, (hfindt k).2 fun hc => hk ⟨hhears.mp hc.1, hc.2⟩, h.find]

/-! ## What a stream's accounts depend on -/

/-- The accounts of a stream. -/
def TapStream.account (st : TapStream) : ℕ × ℕ × ℕ × UInt16 × Bool × Option (List UInt8) :=
  (st.frames, st.dups, st.gaps, st.lastCounter, st.haveCounter, st.prev)

/-- The second stream is the first one, identified better: a kind once found stays. -/
structure Identified (st st' : TapStream) : Prop where
  account : st'.account = st.account
  kind : st'.kind = st.kind ∨ st.kind = .unresolved

section Account

variable (selfMac : Option Mac) (st : TapStream) (frame : List UInt8)

theorem noteModel_identified : Identified st (noteModel st frame) := by
  unfold noteModel
  split_ifs
  · exact ⟨rfl, .inl rfl⟩
  · cases portsParse frame with
    | none => exact ⟨rfl, .inl rfl⟩
    | some ports => exact ⟨rfl, .inl rfl⟩

theorem resolveByRole_identified : Identified st (resolveByRole selfMac st frame) := by
  unfold resolveByRole
  by_cases hheld : st.kind ≠ .unresolved
  · rw [if_pos hheld]
    exact ⟨rfl, .inl rfl⟩
  · rw [if_neg hheld]
    rw [not_not] at hheld
    cases discoClassify frame (selfMac.getD noMac) with
    | none => exact ⟨rfl, .inl rfl⟩
    | some sg =>
      dsimp only
      split_ifs <;> exact ⟨rfl, .inr hheld⟩

theorem resolveByFrames_identified : Identified st (resolveByFrames st) := by
  unfold resolveByFrames
  generalize (if 0 < st.fps then masterOnlyCadenceFrames st.fps else 8000) = window
  dsimp only
  split_ifs with hheld
  · exact ⟨rfl, .inr hheld.1⟩
  · exact ⟨rfl, .inl rfl⟩

theorem resolveByTime_identified (now : ℕ) : Identified st (resolveByTime now st) := by
  unfold resolveByTime
  split_ifs with hskip
  · exact ⟨rfl, .inl rfl⟩
  · rw [not_or, not_not] at hskip
    exact ⟨rfl, .inr hskip.1⟩
  · exact ⟨rfl, .inl rfl⟩

variable {st} in
theorem Identified.trans {st' st'' : TapStream} (h : Identified st st') (h' : Identified st' st'') :
    Identified st st'' := by
  refine ⟨h'.account.trans h.account, ?_⟩
  rcases h'.kind with hkind | hheld
  · rw [hkind]
    exact h.kind
  · rcases h.kind with hkind | hheld'
    · exact .inr (hkind.symm.trans hheld)
    · exact .inr hheld'

theorem identify_identified : Identified st (st.identify selfMac frame) :=
  (noteModel_identified st frame).trans (resolveByRole_identified selfMac _ frame)

/-- An accepted frame is accounted for and then identifies its stream. -/
theorem take_identified (ts : ℕ) : Identified (st.count frame ts) (st.take selfMac frame ts) :=
  (identify_identified selfMac (st.count frame ts) frame).trans (resolveByFrames_identified _)

/-- A frame that has identified its stream has no more to say of it. -/
theorem identify_identify : (st.identify selfMac frame).identify selfMac frame =
    st.identify selfMac frame := by
  have hnote : ∀ kind, noteModel { noteModel st frame with kind := kind } frame =
      { noteModel st frame with kind := kind } := by
    intro kind
    by_cases hskip : st.announced = true ∨ frame.length < 50
    · have hsame : noteModel st frame = st := by
        unfold noteModel
        rw [if_pos hskip]
      rw [hsame]
      unfold noteModel
      exact if_pos hskip
    · cases hports : portsParse frame with
      | none =>
        unfold noteModel
        simp only [hports]
        split_ifs
        rfl
      | some ports =>
        have hann : (noteModel st frame).announced = true := by
          unfold noteModel
          rw [if_neg hskip, hports]
        generalize noteModel st frame = st' at hann
        unfold noteModel
        exact if_pos (.inl hann)
  have hrole : ∃ kind, resolveByRole selfMac (noteModel st frame) frame =
        { noteModel st frame with kind := kind } ∧
      (kind = .unresolved → resolveByRole selfMac (noteModel st frame) frame = noteModel st frame) := by
    generalize noteModel st frame = st'
    unfold resolveByRole
    by_cases hheld : st'.kind ≠ .unresolved
    · rw [if_pos hheld]
      exact ⟨st'.kind, rfl, fun _ => rfl⟩
    · rw [if_neg hheld]
      cases discoClassify frame (selfMac.getD noMac) with
      | none => exact ⟨st'.kind, rfl, fun _ => rfl⟩
      | some sg =>
        dsimp only
        split_ifs
        · exact ⟨.box, rfl, nofun⟩
        · exact ⟨.master, rfl, nofun⟩
        · exact ⟨st'.kind, rfl, fun _ => rfl⟩
  obtain ⟨kind, hkind, hstays⟩ := hrole
  unfold TapStream.identify
  by_cases hheld : kind = .unresolved
  · rw [hstays hheld]
    have hsame := hnote (noteModel st frame).kind
    rw [hsame, hstays hheld]
  · rw [hkind, hnote]
    unfold resolveByRole
    exact if_pos hheld

/-- Nor has it after a verdict by time. -/
theorem identify_resolveByTime (now : ℕ) (h : st.identify selfMac frame = st) :
    (resolveByTime now st).identify selfMac frame = resolveByTime now st := by
  have hnote : noteModel st frame = st := by
    have hann := congrArg TapStream.announced h
    unfold TapStream.identify at hann h
    rw [(resolveByRole_facts selfMac _ frame).1] at hann
    unfold noteModel at hann ⊢
    by_cases hskip : st.announced = true ∨ frame.length < 50
    · rw [if_pos hskip]
    · rw [if_neg hskip] at hann ⊢
      cases hports : portsParse frame with
      | none => rfl
      | some ports =>
        rw [hports] at hann
        exact absurd (.inl hann.symm) hskip
  unfold resolveByTime
  split_ifs
  · exact h
  · have hnote' : noteModel { st with kind := .box } frame = { st with kind := .box } := by
      have hkind := congrArg (fun st' : TapStream => { st' with kind := .box }) hnote
      have hcomm : noteModel { st with kind := .box } frame =
          { noteModel st frame with kind := .box } := by
        unfold noteModel
        dsimp only
        split_ifs
        · rfl
        · cases portsParse frame <;> rfl
      rw [hcomm]
      exact hkind
    unfold TapStream.identify
    rw [hnote']
    unfold resolveByRole
    exact if_pos (by simp)
  · exact h

end Account

/-! ## A frame that comes again -/

/-- What the survey knows of a frame it has seen: it is our own, or of a shape without audio and has
identified its stream, or the last one of its stream, or of a source there is no room for. -/
inductive TapSettled (t : TapSurvey) (frame : List UInt8) : Prop where
  | own (hself : t.selfMac = some (macAt frame 6))
  | shape (hw : upstreamChannels frame.length = 0)
      (hst : ∀ st, t.streams.find (macAt frame 6) = some st → st.identify t.selfMac frame = st)
  | heard (hw : upstreamChannels frame.length ≠ 0) (st : TapStream)
      (hfind : t.streams.find (macAt frame 6) = some st) (hprev : st.prev = some frame)
  | full (hw : upstreamChannels frame.length ≠ 0) (hfind : t.streams.find (macAt frame 6) = none)
      (hfull : t.streams.full = true)

section Settle

variable {s t : TapSurvey} {bytes frame : List UInt8}

theorem upstreamChannels_len (hw : upstreamChannels frame.length ≠ 0) :
    frame.length ≤ 1556 ∧ 124 ≤ frame.length ∧ (frame.length - 52) % 36 = 0 := by
  unfold upstreamChannels at hw
  by_cases hlen : upstreamLenOk frame.length = true
  · unfold upstreamLenOk at hlen
    have hlen := of_decide_eq_true hlen
    omega
  · rw [if_neg hlen] at hw
    exact absurd rfl hw

theorem account_prev {st st' : TapStream} (h : st'.account = st.account) : st'.prev = st.prev :=
  congrArg (fun a => a.2.2.2.2.2) h

theorem take_prev (selfMac : Option Mac) (st : TapStream) (ts : ℕ)
    (hw : upstreamChannels frame.length ≠ 0) : (st.take selfMac frame ts).prev = some frame := by
  rw [account_prev (take_identified selfMac st frame ts).account]
  exact if_pos (upstreamChannels_len hw).1

theorem settled_after (s : TapSurvey) (hreac : frameIsReac bytes = true) (ts : ℕ) :
    TapSettled (tapStep s (.frame bytes ts)).1 (cleanFrame bytes) := by
  obtain ⟨hself, hfind, -⟩ := surveyFrame_view s bytes ts
  simp only [tapStep]
  by_cases hown : s.selfMac = some (macAt (cleanFrame bytes) 6)
  · exact .own (hself.trans hown)
  have hnext := (hfind (macAt (cleanFrame bytes) 6)).1 ⟨⟨hreac, hown⟩, rfl⟩
  by_cases hw : upstreamChannels (cleanFrame bytes).length = 0
  · refine .shape hw ?_
    intro st hst
    rw [hnext] at hst
    cases hold : s.streams.find (macAt (cleanFrame bytes) 6) with
    | none =>
      rw [hold, nextStream, if_pos (.inl hw)] at hst
      cases hst
    | some st₀ =>
      rw [hold, nextStream, if_pos hw] at hst
      rw [← Option.some.inj hst, hself]
      exact identify_identify ..
  · cases hold : s.streams.find (macAt (cleanFrame bytes) 6) with
    | some st₀ =>
      rw [hold, nextStream, if_neg hw] at hnext
      by_cases hprev : st₀.prev = some (cleanFrame bytes)
      · rw [if_pos hprev] at hnext
        exact .heard hw _ hnext hprev
      · rw [if_neg hprev] at hnext
        exact .heard hw _ hnext (take_prev _ _ _ hw)
    | none =>
      rw [hold, nextStream] at hnext
      by_cases hfull : s.streams.full = true
      · rw [if_pos (.inr hfull)] at hnext
        exact .full hw hnext (tapStep_full (i := .frame bytes ts) hfull)
      · rw [if_neg (by simp [hw, hfull])] at hnext
        exact .heard hw _ hnext (take_prev _ _ _ hw)

/-- What comes before the frame comes again: verdicts by time, frames of other sources and other
copies. -/
def LeavesAlone (frame : List UInt8) : TapInput → Prop
  | .resolve _ => True
  | .frame bytes _ =>
    frameIsReac bytes = true → macAt (cleanFrame bytes) 6 = macAt frame 6 → cleanFrame bytes = frame

/-- The frame again: it is counted as a copy if its stream is there, and nothing else happens to the
streams. -/
theorem TapSettled.again (h : TapSettled t frame) (hclean : cleanFrame bytes = frame) (ts : ℕ) (k : Mac) :
    (tapStep t (.frame bytes ts)).1.streams.find k =
      if frameIsReac bytes = true ∧ t.selfMac ≠ some k ∧ upstreamChannels frame.length ≠ 0 ∧
          k = macAt frame 6 then
        (t.streams.find k).map fun st => { st with dups := st.dups + 1 }
      else t.streams.find k := by
  obtain ⟨-, hfind, -⟩ := surveyFrame_view t bytes ts
  rw [hclean] at hfind
  simp only [tapStep]
  by_cases hk : t.hears bytes ∧ k = macAt frame 6
  · obtain ⟨⟨hreac, hown⟩, rfl⟩ := hk
    rw [hclean] at hown
    rw [(hfind _).1 ⟨⟨hreac, by rw [hclean]; exact hown⟩, rfl⟩]
    cases h with
    | own hself => exact absurd hself hown
    | shape hw hst =>
      rw [if_neg (by simp [hw])]
      cases hold : t.streams.find (macAt frame 6) with
      | none => rw [nextStream, if_pos (.inl hw)]
      | some st => rw [nextStream, if_pos hw, hst st hold]
    | heard hw st hold hprev =>
      rw [if_pos ⟨hreac, hown, hw, rfl⟩, hold, nextStream, if_neg hw, if_pos hprev]
      rfl
    | full hw hold hfull =>
      rw [if_pos ⟨hreac, hown, hw, rfl⟩, hold, nextStream, if_pos (.inr hfull)]
      rfl
  · rw [(hfind k).2 hk, if_neg]
    rintro ⟨hreac, hown, -, rfl⟩
    refine hk ⟨⟨hreac, ?_⟩, rfl⟩
    rw [hclean]
    exact hown

theorem tapStep_selfMac (s : TapSurvey) (i : TapInput) : (tapStep s i).1.selfMac = s.selfMac := by
  cases i with
  | resolve now => rfl
  | frame bytes ts => exact (surveyFrame_view s bytes ts).1

theorem TapSettled.step (h : TapSettled t frame) {i : TapInput} (hi : LeavesAlone frame i) :
    TapSettled (tapStep t i).1 frame := by
  have hself := tapStep_selfMac t i
  cases i with
  | resolve now =>
    have hfind := surveyResolve_find t now (macAt frame 6)
    cases h with
    | own hown => exact .own (hself.trans hown)
    | shape hw hst =>
      refine .shape hw ?_
      intro st hsome
      obtain ⟨st₀, hst₀, rfl⟩ := Option.map_eq_some_iff.mp (hfind.symm.trans hsome)
      rw [hself]
      exact identify_resolveByTime _ _ _ _ (hst st₀ hst₀)
    | heard hw st hold hprev =>
      rw [hold] at hfind
      exact .heard hw _ hfind ((account_prev (resolveByTime_identified st now).account).trans hprev)
    | full hw hold hfull =>
      rw [hold] at hfind
      exact .full hw hfind (tapStep_full hfull)
  | frame bytes ts =>
    by_cases hsame : frameIsReac bytes = true ∧ macAt (cleanFrame bytes) 6 = macAt frame 6
    · -- Another copy: the streams stay as they are, up to the count.
      have hclean := hi hsame.1 hsame.2
      have hagain := h.again hclean ts (macAt frame 6)
      cases h with
      | own hown => exact .own (hself.trans hown)
      | shape hw hst =>
        rw [if_neg (by simp [hw])] at hagain
        refine .shape hw ?_
        intro st hsome
        rw [hself]
        exact hst st (hagain.symm.trans hsome)
      | heard hw st hold hprev =>
        rw [hold] at hagain
        split_ifs at hagain
        · exact .heard hw _ hagain hprev
        · exact .heard hw _ hagain hprev
      | full hw hold hfull =>
        rw [hold, Option.map_none, ite_self] at hagain
        exact .full hw hagain (tapStep_full hfull)
    · have hother : (tapStep t (.frame bytes ts)).1.streams.find (macAt frame 6) =
          t.streams.find (macAt frame 6) :=
        ((surveyFrame_view t bytes ts).2.1 _).2 fun hc => hsame ⟨hc.1.1, hc.2.symm⟩
      cases h with
      | own hown => exact .own (hself.trans hown)
      | shape hw hst =>
        refine .shape hw ?_
        rw [hself, hother]
        exact hst
      | heard hw st hold hprev => exact .heard hw st (hother.trans hold) hprev
      | full hw hold hfull => exact .full hw (hother.trans hold) (tapStep_full hfull)

theorem TapSettled.run (h : TapSettled t frame) {is : List TapInput} (his : ∀ i ∈ is, LeavesAlone frame i) :
    TapSettled (tapMachine.run t is) frame := by
  induction is generalizing t with
  | nil => exact h
  | cons i is ih =>
    rw [tapMachine.run_cons, tapMachine_step]
    exact ih (h.step (his i List.mem_cons_self)) fun j hj => his j (List.mem_cons_of_mem _ hj)

end Settle

/-! ## The accounts -/

/-- The frame with audio that the call brings from the source, clean. -/
def audioFrom (k : Mac) : TapInput → Option (List UInt8)
  | .frame bytes _ =>
    if frameIsReac bytes = true ∧ upstreamChannels (cleanFrame bytes).length ≠ 0 ∧
        macAt (cleanFrame bytes) 6 = k then
      some (cleanFrame bytes)
    else none
  | .resolve _ => none

theorem audioFrom_frame (k : Mac) (bytes : List UInt8) (ts : ℕ) :
    audioFrom k (.frame bytes ts) =
      if frameIsReac bytes = true ∧ upstreamChannels (cleanFrame bytes).length ≠ 0 ∧
          macAt (cleanFrame bytes) 6 = k then
        some (cleanFrame bytes)
      else none := rfl

/-- The frames with audio from the source, in order. -/
def heardFrom (k : Mac) (is : List TapInput) : List (List UInt8) := is.filterMap (audioFrom k)

/-- How often a frame with audio from the source came again. -/
def copiesFrom (k : Mac) (is : List (Offered TapInput)) : ℕ :=
  (heardFrom k (is.filterMap Offered.extra?)).length

/-- How far a counter has come over its readings, modulo 2^16 at each of them. -/
def advance : List UInt16 → ℕ
  | a :: b :: cs => (b - a).toNat + advance (b :: cs)
  | _ => 0

theorem advance_concat (cs : List UInt16) (last c : UInt16) :
    advance (cs ++ [last] ++ [c]) = advance (cs ++ [last]) + (c - last).toNat := by
  induction cs with
  | nil => simp [advance]
  | cons a cs ih =>
    cases cs with
    | nil => simp [advance]
    | cons b cs =>
      simp only [List.cons_append, advance] at ih ⊢
      rw [ih, Nat.add_assoc]

/-- The frames are numbered as their sender sent them: the counter is the low half of the number, and
less than a full turn of it is lost at a time. -/
def InOrder (ns : List ℕ) (frames : List (List UInt8)) : Prop :=
  frames.map frameCounter = ns.map UInt16.ofNat ∧ ns.IsChain fun a b => a < b ∧ b < a + 65536

theorem counter_sub {a b : ℕ} (h : a < b ∧ b < a + 65536) :
    (UInt16.ofNat b - UInt16.ofNat a).toNat = b - a := by
  simp only [UInt16.toNat_sub, UInt16.toNat_ofNat']
  omega

theorem advance_inOrder {ns : List ℕ} (h : ns.IsChain fun a b => a < b ∧ b < a + 65536) :
    advance (ns.map UInt16.ofNat) = ns.getLastD 0 - ns.headD 0 ∧ ns.headD 0 ≤ ns.getLastD 0 := by
  induction ns with
  | nil => exact ⟨rfl, Nat.le_refl _⟩
  | cons a ns ih =>
    cases ns with
    | nil => exact ⟨by simp [advance], Nat.le_refl _⟩
    | cons b ns =>
      obtain ⟨hab, hrest⟩ := List.isChain_cons_cons.mp h
      obtain ⟨hadvance, hle⟩ := ih hrest
      simp only [List.map_cons, advance, List.headD_cons] at hadvance hle ⊢
      have hlast : (a :: b :: ns).getLastD 0 = (b :: ns).getLastD 0 := by simp
      rw [counter_sub hab, hadvance, hlast]
      omega

/-- The accounts of a stream after these frames and so many copies. -/
structure Accounted (frames : List (List UInt8)) (copies : ℕ) (st : TapStream) : Prop where
  total : st.frames + st.gaps = 1 + advance (frames.map frameCounter)
  dups : st.dups = copies
  counting : st.haveCounter = true
  prev : st.prev = frames.getLast?
  last : frames.getLast?.map frameCounter = some st.lastCounter
  /-- A stream that is still held was opened by a broadcast frame. -/
  held : st.kind = .unresolved → ∃ frame ∈ frames.head?, macAt frame 0 = broadcastMac

/-- The accounts of a survey: our own frames open no stream, a source with a stream is accounted for,
and one without has not been heard or found no room. -/
structure SurveyOk (is : List (Offered TapInput)) (s : TapSurvey) : Prop where
  own : ∀ k, s.selfMac = some k → s.streams.find k = none
  known : ∀ k st, s.streams.find k = some st →
    Accounted (heardFrom k (is.filterMap Offered.both?)) (copiesFrom k is) st
  unknown : ∀ k, s.selfMac ≠ some k → s.streams.find k = none →
    heardFrom k (is.filterMap Offered.both?) = [] ∧ copiesFrom k is = 0 ∨ s.streams.full = true

section Accounts

variable {st st' : TapStream} {frames : List (List UInt8)} {copies : ℕ} {frame : List UInt8}

theorem Accounted.identified (h : Accounted frames copies st) (hst : Identified st st') :
    Accounted frames copies st' := by
  have hacc := hst.account
  simp only [TapStream.account, Prod.mk.injEq] at hacc
  obtain ⟨hframes, hdups, hgaps, hlast, hcounting, hprev⟩ := hacc
  refine ⟨?_, hdups.trans h.dups, hcounting.trans h.counting, hprev.trans h.prev, ?_, ?_⟩
  · rw [hframes, hgaps]
    exact h.total
  · rw [hlast]
    exact h.last
  · intro hheld
    rcases hst.kind with hkind | hwas
    · exact h.held (hkind.symm.trans hheld)
    · exact h.held hwas

/-- The first frame of a stream. -/
theorem accounted_new (selfMac : Option Mac) (ts : ℕ) (hw : upstreamChannels frame.length ≠ 0) :
    Accounted [frame] 0 ((tapStreamOf frame).take selfMac frame ts) := by
  have hcount : Accounted [frame] 0 ((tapStreamOf frame).count frame ts) := by
    refine ⟨rfl, rfl, rfl, ?_, rfl, ?_⟩
    · exact if_pos (upstreamChannels_len hw).1
    · intro hheld
      have hkind : (tapStreamOf frame).kind = .unresolved := hheld
      unfold tapStreamOf at hkind
      dsimp only at hkind
      split_ifs at hkind with hdst
      · rw [not_not] at hdst
        exact ⟨frame, rfl, hdst⟩
  exact hcount.identified (take_identified _ _ _ _)

/-- The next frame of a stream. -/
theorem Accounted.take (h : Accounted frames copies st) (selfMac : Option Mac) (ts : ℕ)
    (hw : upstreamChannels frame.length ≠ 0)
    (horder : ((frames ++ [frame]).map frameCounter).IsChain (· ≠ ·)) :
    Accounted (frames ++ [frame]) copies (st.take selfMac frame ts) := by
  obtain ⟨last, hlast, hcounter⟩ := Option.map_eq_some_iff.mp h.last
  obtain ⟨before, rfl⟩ : ∃ before, frames = before ++ [last] := by
    obtain ⟨before, rfl⟩ := List.getLast?_eq_some_iff.mp hlast
    exact ⟨before, rfl⟩
  have hne : frameCounter last ≠ frameCounter frame := by
    rw [List.append_assoc, List.map_append, List.singleton_append, List.map_cons, List.map_singleton,
      List.isChain_append] at horder
    exact (List.isChain_cons_cons.mp horder.2.1).1
  have hgap : (frameCounter frame - frameCounter last).toNat =
      (counterGap (frameCounter last) (frameCounter frame)).toNat + 1 := by
    have hdiff : frameCounter last ≠ frameCounter frame := hne
    rw [Ne, ← UInt16.toNat_inj] at hdiff
    have hl := (frameCounter last).toNat_lt
    have hf := (frameCounter frame).toNat_lt
    simp only [counterGap, UInt16.toNat_sub, UInt16.toNat_one]
    omega
  have hcount : Accounted (before ++ [last] ++ [frame]) copies (st.count frame ts) := by
    refine ⟨?_, h.dups, rfl, ?_, ?_, ?_⟩
    · have htotal := h.total
      have hgaps : (st.count frame ts).gaps =
          st.gaps + (counterGap (frameCounter last) (frameCounter frame)).toNat := by
        rw [hcounter]
        exact if_pos h.counting
      have hframes : (st.count frame ts).frames = st.frames + 1 := rfl
      rw [List.map_append, List.map_append, List.map_singleton, List.map_singleton, advance_concat, hgap,
        hgaps, hframes]
      rw [List.map_append, List.map_singleton] at htotal
      omega
    · rw [List.getLast?_concat]
      exact if_pos (upstreamChannels_len hw).1
    · rw [List.getLast?_concat]
      rfl
    · intro hheld
      obtain ⟨first, hfirst, hdst⟩ := h.held hheld
      refine ⟨first, ?_, hdst⟩
      rw [List.head?_append, hfirst]
      rfl
  exact hcount.identified (take_identified _ _ _ _)

end Accounts

section Runs

variable {is : List (Offered TapInput)} {s : TapSurvey}

theorem heardFrom_both (k : Mac) (is : List (Offered TapInput)) (i : TapInput) :
    heardFrom k ((is ++ [Offered.both i]).filterMap Offered.both?) =
      heardFrom k (is.filterMap Offered.both?) ++ (audioFrom k i).toList := by
  simp only [heardFrom, List.filterMap_append, List.filterMap_cons, List.filterMap_nil, Offered.both?]
  cases audioFrom k i <;> rfl

theorem heardFrom_extra (k : Mac) (is : List (Offered TapInput)) (i : TapInput) :
    heardFrom k ((is ++ [Offered.extra i]).filterMap Offered.both?) =
      heardFrom k (is.filterMap Offered.both?) := by
  simp [List.filterMap_append, List.filterMap_cons, Offered.both?]

theorem copiesFrom_both (k : Mac) (is : List (Offered TapInput)) (i : TapInput) :
    copiesFrom k (is ++ [.both i]) = copiesFrom k is := by
  simp [copiesFrom, List.filterMap_append, List.filterMap_cons, Offered.extra?]

theorem copiesFrom_extra (k : Mac) (is : List (Offered TapInput)) (i : TapInput) :
    copiesFrom k (is ++ [.extra i]) = copiesFrom k is + (audioFrom k i).toList.length := by
  simp only [copiesFrom, heardFrom, List.filterMap_append, List.filterMap_cons, List.filterMap_nil,
    Offered.extra?, List.length_append]
  cases audioFrom k i <;> rfl

/-- A source the call brings no audio from, and whose stream it at most identifies. -/
theorem SurveyOk.quiet (h : SurveyOk is s) {i : Offered TapInput} {k : Mac} {s' : TapSurvey}
    (hnone : audioFrom k i.input = none) {f : TapStream → TapStream} (hf : ∀ st, Identified st (f st))
    (hfind : s'.streams.find k = (s.streams.find k).map f) (hself : s'.selfMac = s.selfMac)
    (hfull : s.streams.full = true → s'.streams.full = true) :
    (s'.selfMac = some k → s'.streams.find k = none) ∧
      (∀ st, s'.streams.find k = some st →
        Accounted (heardFrom k ((is ++ [i]).filterMap Offered.both?)) (copiesFrom k (is ++ [i])) st) ∧
      (s'.selfMac ≠ some k → s'.streams.find k = none →
        heardFrom k ((is ++ [i]).filterMap Offered.both?) = [] ∧ copiesFrom k (is ++ [i]) = 0 ∨
          s'.streams.full = true) := by
  have hheard : heardFrom k ((is ++ [i]).filterMap Offered.both?) =
        heardFrom k (is.filterMap Offered.both?) ∧ copiesFrom k (is ++ [i]) = copiesFrom k is := by
    cases i with
    | both i =>
      rw [heardFrom_both, copiesFrom_both, show audioFrom k i = none from hnone]
      exact ⟨List.append_nil _, rfl⟩
    | extra i =>
      rw [heardFrom_extra, copiesFrom_extra, show audioFrom k i = none from hnone]
      exact ⟨rfl, rfl⟩
  rw [hheard.1, hheard.2, hself, hfind]
  refine ⟨?_, ?_, ?_⟩
  · intro hown
    rw [h.own k hown]
    rfl
  · intro st hst
    obtain ⟨st₀, hst₀, rfl⟩ := Option.map_eq_some_iff.mp hst
    exact (h.known k st₀ hst₀).identified (hf st₀)
  · intro hown hst
    rw [Option.map_eq_none_iff] at hst
    rcases h.unknown k hown hst with hunheard | hroom
    · exact .inl hunheard
    · exact .inr (hfull hroom)

theorem identified_refl (st : TapStream) : Identified st st := ⟨rfl, .inl rfl⟩

theorem SurveyOk.of_sources {i : Offered TapInput} {s' : TapSurvey}
    (h : ∀ k, (s'.selfMac = some k → s'.streams.find k = none) ∧
      (∀ st, s'.streams.find k = some st →
        Accounted (heardFrom k ((is ++ [i]).filterMap Offered.both?)) (copiesFrom k (is ++ [i])) st) ∧
      (s'.selfMac ≠ some k → s'.streams.find k = none →
        heardFrom k ((is ++ [i]).filterMap Offered.both?) = [] ∧ copiesFrom k (is ++ [i]) = 0 ∨
          s'.streams.full = true)) : SurveyOk (is ++ [i]) s' :=
  ⟨fun k => (h k).1, fun k => (h k).2.1, fun k => (h k).2.2⟩

theorem SurveyOk.both (h : SurveyOk is s) (i : TapInput)
    (horder : ∀ k, ((heardFrom k ((is ++ [Offered.both i]).filterMap Offered.both?)).map frameCounter).IsChain
      (· ≠ ·)) : SurveyOk (is ++ [.both i]) (tapStep s i).1 := by
  have hself := tapStep_selfMac s i
  refine .of_sources fun k => ?_
  cases i with
  | resolve now =>
    exact h.quiet rfl (fun st => resolveByTime_identified st now) (surveyResolve_find s now k) hself
      tapStep_full
  | frame bytes ts =>
    obtain ⟨-, hfind, -⟩ := surveyFrame_view s bytes ts
    have hsame : ∀ hstays : (tapStep s (.frame bytes ts)).1.streams.find k = s.streams.find k,
        (tapStep s (.frame bytes ts)).1.streams.find k = (s.streams.find k).map id := by
      intro hstays
      rw [hstays, Option.map_id]
      rfl
    by_cases hk : s.hears bytes ∧ k = macAt (cleanFrame bytes) 6
    · obtain ⟨hhears, rfl⟩ := hk
      have hnext := (hfind _).1 ⟨hhears, rfl⟩
      by_cases hw : upstreamChannels (cleanFrame bytes).length = 0
      · have hnone : audioFrom (macAt (cleanFrame bytes) 6) (.frame bytes ts) = none := by
          simp [audioFrom, hw]
        refine h.quiet (i := .both (.frame bytes ts)) hnone
          (fun st => identify_identified s.selfMac st (cleanFrame bytes)) ?_ hself tapStep_full
        refine Eq.trans hnext ?_
        cases s.streams.find (macAt (cleanFrame bytes) 6) with
        | none => rw [nextStream, if_pos (.inl hw)]; rfl
        | some st => rw [nextStream, if_pos hw]; rfl
      · have hsome : audioFrom (macAt (cleanFrame bytes) 6) (.frame bytes ts) =
            some (cleanFrame bytes) := if_pos ⟨hhears.1, hw, rfl⟩
        have horder := horder (macAt (cleanFrame bytes) 6)
        rw [heardFrom_both, hsome] at horder ⊢
        rw [copiesFrom_both, hself]
        refine ⟨fun hown => absurd hown hhears.2, ?_, ?_⟩
        · intro st hst
          rw [show (tapStep s (.frame bytes ts)).1 = (surveyFrame s bytes ts).1 from rfl, hnext] at hst
          cases hold : s.streams.find (macAt (cleanFrame bytes) 6) with
          | some st₀ =>
            have hacc := h.known _ st₀ hold
            have htaken := hacc.take s.selfMac ts hw horder
            have hprev : st₀.prev ≠ some (cleanFrame bytes) := by
              intro hprev
              rw [hacc.prev] at hprev
              obtain ⟨before, hframes⟩ := List.getLast?_eq_some_iff.mp hprev
              rw [hframes, Option.toList_some, List.append_assoc, List.map_append, List.singleton_append,
                List.map_cons, List.map_singleton, List.isChain_append] at horder
              exact (List.isChain_cons_cons.mp horder.2.1).1 rfl
            rw [hold, nextStream, if_neg hw, if_neg hprev] at hst
            obtain rfl := Option.some.inj hst
            exact htaken
          | none =>
            rw [hold, nextStream] at hst
            split_ifs at hst with hroom
            rw [not_or, Bool.not_eq_true] at hroom
            obtain rfl := Option.some.inj hst
            rcases h.unknown _ hhears.2 hold with ⟨hunheard, hcopies⟩ | hfull
            · rw [hunheard, hcopies]
              exact accounted_new s.selfMac ts hw
            · rw [hfull] at hroom
              cases hroom.2
        · intro _ hst
          rw [show (tapStep s (.frame bytes ts)).1 = (surveyFrame s bytes ts).1 from rfl, hnext] at hst
          cases hold : s.streams.find (macAt (cleanFrame bytes) 6) with
          | some st₀ =>
            rw [hold, nextStream, if_neg hw] at hst
            split_ifs at hst
          | none =>
            rw [hold, nextStream] at hst
            split_ifs at hst with hroom
            rcases hroom with hroom | hroom
            · exact absurd hroom hw
            · exact .inr (tapStep_full hroom)
    · by_cases haudio : audioFrom k (.frame bytes ts) = none
      · exact h.quiet (i := .both (.frame bytes ts)) haudio identified_refl (hsame ((hfind k).2 hk)) hself
          tapStep_full
      · -- The frame is our own.
        have hown : s.selfMac = some k := by
          unfold audioFrom at haudio
          by_contra hother
          refine haudio (if_neg ?_)
          rintro ⟨hreac, -, rfl⟩
          exact hk ⟨⟨hreac, hother⟩, rfl⟩
        have hstays := (hfind k).2 hk
        rw [hself]
        refine ⟨fun _ => hstays.trans (h.own k hown), ?_, fun hno => absurd hown hno⟩
        intro st hst
        rw [show (tapStep s (.frame bytes ts)).1 = (surveyFrame s bytes ts).1 from rfl, hstays,
          h.own k hown] at hst
        cases hst

theorem SurveyOk.extra (h : SurveyOk is s) {bytes frame : List UInt8} (hsettled : TapSettled s frame)
    (hclean : cleanFrame bytes = frame) (ts : ℕ) :
    SurveyOk (is ++ [.extra (.frame bytes ts)]) (tapStep s (.frame bytes ts)).1 := by
  have hself := tapStep_selfMac s (.frame bytes ts)
  refine .of_sources fun k => ?_
  have hagain := hsettled.again hclean ts k
  by_cases hcounts : frameIsReac bytes = true ∧ s.selfMac ≠ some k ∧
      upstreamChannels frame.length ≠ 0 ∧ k = macAt frame 6
  · rw [if_pos hcounts] at hagain
    have hsome : audioFrom k (.frame bytes ts) = some frame := by
      rw [audioFrom_frame, hclean, if_pos ⟨hcounts.1, hcounts.2.2.1, hcounts.2.2.2.symm⟩]
    rw [heardFrom_extra, copiesFrom_extra, hsome, hself, hagain]
    refine ⟨fun hown => absurd hown hcounts.2.1, ?_, ?_⟩
    · intro st hst
      obtain ⟨st₀, hst₀, rfl⟩ := Option.map_eq_some_iff.mp hst
      have hacc := h.known k st₀ hst₀
      exact ⟨hacc.total, congrArg (· + 1) hacc.dups, hacc.counting, hacc.prev, hacc.last, hacc.held⟩
    · intro _ hst
      rw [Option.map_eq_none_iff] at hst
      cases hsettled with
      | own hown =>
        rw [← hcounts.2.2.2] at hown
        exact absurd hown hcounts.2.1
      | shape hw _ => exact absurd hw hcounts.2.2.1
      | heard _ st hold _ =>
        rw [hcounts.2.2.2, hold] at hst
        cases hst
      | full _ _ hfull => exact .inr (tapStep_full hfull)
  · rw [if_neg hcounts] at hagain
    by_cases hown : s.selfMac = some k
    · rw [hself, hagain, h.own k hown]
      exact ⟨fun _ => rfl, nofun, fun hno => absurd hown hno⟩
    · have hnone : audioFrom k (.frame bytes ts) = none := by
        rw [audioFrom_frame, hclean, if_neg]
        rintro ⟨hreac, hw, rfl⟩
        exact hcounts ⟨hreac, hown, hw, rfl⟩
      refine h.quiet (i := .extra (.frame bytes ts)) hnone identified_refl ?_ hself tapStep_full
      rw [hagain]
      cases s.streams.find k <;> rfl

end Runs

/-! ## Surveys with mirror copies -/

/-- The call brings a frame that was heard before, with or without two bytes of residue; what came since is
verdicts by time, frames of other sources and other copies. -/
def IsTapCopy (is : List TapInput) (i : TapInput) : Prop :=
  ∃ before bytes ts between residue ts', is = before ++ .frame bytes ts :: between ∧
    frameIsReac bytes = true ∧ i = .frame (cleanFrame bytes ++ residue) ts' ∧
    (residue = [] ∨ residue.length = 2 ∧ 52 ≤ (cleanFrame bytes).length ∧
      ((cleanFrame bytes).length - 52) % 36 = 0) ∧
    ∀ j ∈ between, LeavesAlone (cleanFrame bytes) j

/-- What the second survey hears beside the first is copies. -/
def TapMirrored (is : List (Offered TapInput)) : Prop :=
  ∀ is₁ i is₂, is = is₁ ++ .extra i :: is₂ → IsTapCopy (is₁.map Offered.input) i

theorem cleanFrame_residue (bytes residue : List UInt8)
    (h : residue = [] ∨ residue.length = 2 ∧ 52 ≤ (cleanFrame bytes).length ∧
      ((cleanFrame bytes).length - 52) % 36 = 0) :
    cleanFrame (cleanFrame bytes ++ residue) = cleanFrame bytes := by
  have hlen : frameCleanLen (cleanFrame bytes ++ residue).length = (cleanFrame bytes).length := by
    rw [List.length_append]
    rcases h with rfl | ⟨hresidue, hmin, hmod⟩
    · have hclean : (cleanFrame bytes).length = frameCleanLen bytes.length := by
        rw [cleanFrame, List.length_take]
        unfold frameCleanLen
        split_ifs <;> omega
      rw [List.length_nil, Nat.add_zero, hclean]
      unfold frameCleanLen
      split_ifs <;> omega
    · unfold frameCleanLen
      rw [hresidue, if_pos (by omega)]
      omega
  rw [cleanFrame, hlen, List.take_left]

/-- At a copy the survey knows the frame. -/
theorem IsTapCopy.settled {is : List TapInput} {i : TapInput} (h : IsTapCopy is i) (selfMac : Option Mac) :
    ∃ bytes ts frame, i = .frame bytes ts ∧ cleanFrame bytes = frame ∧
      TapSettled (tapMachine.run (tapStart selfMac) is) frame := by
  obtain ⟨before, bytes, ts, between, residue, ts', rfl, hreac, rfl, hresidue, hbetween⟩ := h
  refine ⟨_, ts', cleanFrame bytes, rfl, cleanFrame_residue bytes residue hresidue, ?_⟩
  rw [tapMachine.run_append, tapMachine.run_cons, tapMachine_step]
  exact (settled_after _ hreac ts).run hbetween

theorem SameStreams.refl (s : TapSurvey) : SameStreams s s := ⟨rfl, rfl, fun _ => rfl⟩

/-- A frame again leaves the streams as they are, up to the count of copies. -/
theorem SameStreams.again {b t : TapSurvey} (h : SameStreams b t) {bytes frame : List UInt8}
    (hsettled : TapSettled t frame) (hclean : cleanFrame bytes = frame) (ts : ℕ) :
    SameStreams b (tapStep t (.frame bytes ts)).1 := by
  have hagain := hsettled.again hclean ts
  refine ⟨(tapStep_selfMac t _).trans h.selfMac, ?_, ?_⟩
  · rcases (surveyFrame_view t bytes ts).2.2 with hkeys | ⟨hkeys, -, -, hnew, -⟩
    · exact hkeys.trans h.keys
    · -- A stream that was not there would have been opened.
      have hsrc := hagain (macAt (cleanFrame bytes) 6)
      rw [hnew, Option.map_none, ite_self, Roster.find_eq_none_iff] at hsrc
      refine absurd ?_ hsrc
      simp only [tapStep]
      rw [hkeys]
      exact List.mem_append_right _ (List.mem_singleton_self _)
  · intro k
    rw [hagain k, ← h.find k]
    split_ifs
    · rw [Option.map_map]
      rfl
    · rfl

/-- The survey with the copies keeps its accounts, and has the streams of the survey without them. -/
theorem survey_runs (selfMac : Option Mac) (is : List (Offered TapInput)) (hcopies : TapMirrored is)
    (horder : ∀ k, ((heardFrom k (is.filterMap Offered.both?)).map frameCounter).IsChain (· ≠ ·)) :
    SurveyOk is (tapMachine.run (tapStart selfMac) (is.map Offered.input)) ∧
      SameStreams (tapMachine.run (tapStart selfMac) (is.filterMap Offered.both?))
        (tapMachine.run (tapStart selfMac) (is.map Offered.input)) := by
  induction is using List.reverseRecOn with
  | nil =>
    refine ⟨⟨fun _ _ => rfl, nofun, fun _ _ _ => .inl ⟨rfl, rfl⟩⟩, .refl _⟩
  | append_singleton is i ih =>
    have hcopies₀ : TapMirrored is := by
      rintro is₁ j is₂ rfl
      exact hcopies is₁ j (is₂ ++ [i]) (by simp)
    have horder₀ : ∀ k,
        ((heardFrom k (is.filterMap Offered.both?)).map frameCounter).IsChain (· ≠ ·) := by
      intro k
      have hk := horder k
      simp only [heardFrom, List.filterMap_append, List.map_append] at hk
      exact (List.isChain_append.mp hk).1
    obtain ⟨hok, hsame⟩ := ih hcopies₀ horder₀
    rw [List.map_append, List.map_singleton, tapMachine.run_concat, List.filterMap_append]
    cases i with
    | both i =>
      rw [show [Offered.both i].filterMap Offered.both? = [i] from rfl, tapMachine.run_concat]
      exact ⟨hok.both i horder, hsame.step i⟩
    | extra i =>
      rw [show [Offered.extra i].filterMap Offered.both? = [] from rfl, List.append_nil]
      obtain ⟨bytes, ts, frame, rfl, hclean, hsettled⟩ :=
        (hcopies is i [] rfl).settled selfMac
      exact ⟨hok.extra hsettled hclean ts, hsame.again hsettled hclean ts⟩

/-! ## Kinds -/

/-- Streams stay, and a kind once found stays. -/
def KindsStay (s s' : TapSurvey) : Prop :=
  ∀ k st, s.streams.find k = some st →
    ∃ st', s'.streams.find k = some st' ∧ (st'.kind = st.kind ∨ st.kind = .unresolved)

theorem KindsStay.step (s : TapSurvey) (i : TapInput) : KindsStay s (tapStep s i).1 := by
  intro k st hst
  cases i with
  | resolve now =>
    refine ⟨resolveByTime now st, ?_, (resolveByTime_identified st now).kind⟩
    exact (surveyResolve_find s now k).trans (congrArg _ hst)
  | frame bytes ts =>
    obtain ⟨-, hfind, -⟩ := surveyFrame_view s bytes ts
    by_cases hk : s.hears bytes ∧ k = macAt (cleanFrame bytes) 6
    · have hnext := (hfind k).1 hk
      rw [hst, nextStream] at hnext
      split_ifs at hnext
      · exact ⟨_, hnext, (identify_identified s.selfMac st _).kind⟩
      · exact ⟨_, hnext, .inl rfl⟩
      · exact ⟨_, hnext, (take_identified s.selfMac st _ ts).kind⟩
    · exact ⟨st, ((hfind k).2 hk).trans hst, .inl rfl⟩

theorem KindsStay.run (s : TapSurvey) (is : List TapInput) : KindsStay s (tapMachine.run s is) := by
  induction is generalizing s with
  | nil => exact fun k st hst => ⟨st, hst, .inl rfl⟩
  | cons i is ih =>
    intro k st hst
    obtain ⟨st₁, hst₁, hkind₁⟩ := KindsStay.step s i k st hst
    obtain ⟨st₂, hst₂, hkind₂⟩ := ih _ k st₁ hst₁
    refine ⟨st₂, hst₂, ?_⟩
    rcases hkind₂ with hsame | hheld
    · rw [hsame]
      exact hkind₁
    · rcases hkind₁ with hsame | hheld₁
      · exact .inr (hsame.symm.trans hheld)
      · exact .inr hheld₁

theorem ne_of_inOrder {ns : List ℕ} {frames : List (List UInt8)} (h : InOrder ns frames) :
    (frames.map frameCounter).IsChain (· ≠ ·) := by
  rw [h.1, List.isChain_map]
  refine h.2.imp ?_
  intro a b hab hsame
  have hsub := counter_sub hab
  rw [hsame, UInt16.sub_self] at hsub
  simp at hsub
  omega

/-- A survey of streams in counter order with mirror copies: one stream for each source, none of them
ours; the frames and gaps of a stream make up what its sender has sent since it was first heard, and its
copies are counted; the streams are those of the survey without the copies; a kind changes only from
unresolved, and a stream that is still unresolved was opened by a broadcast frame. -/
theorem tap_survey_accounts (selfMac : Option Mac) (is : List (Offered TapInput)) (number : Mac → List ℕ)
    (hcopies : TapMirrored is)
    (horder : ∀ k, InOrder (number k) (heardFrom k (is.filterMap Offered.both?))) :
    let base := tapMachine.run (tapStart selfMac) (is.filterMap Offered.both?)
    let s := tapMachine.run (tapStart selfMac) (is.map Offered.input)
    (s.streams.entries.map TapStream.src).Nodup ∧ s.streams.entries.length ≤ tapMaxStreams ∧
    (∀ st ∈ s.streams.entries, selfMac ≠ some st.src ∧
      st.frames + st.gaps = 1 + ((number st.src).getLastD 0 - (number st.src).headD 0) ∧
      st.dups = copiesFrom st.src is ∧
      (st.kind = .unresolved →
        ∃ first ∈ (heardFrom st.src (is.filterMap Offered.both?)).head?, macAt first 0 = broadcastMac)) ∧
    s.streams.entries.map TapStream.undup = base.streams.entries.map TapStream.undup ∧
    s.selfMac = base.selfMac ∧
    ∀ is₁ is₂, is = is₁ ++ is₂ →
      KindsStay (tapMachine.run (tapStart selfMac) (is₁.map Offered.input)) s := by
  intro base s
  obtain ⟨hok, hsame⟩ := survey_runs selfMac is hcopies fun k => ne_of_inOrder (horder k)
  have hself : s.selfMac = selfMac :=
    tapMachine.run_invariant (I := fun s => s.selfMac = selfMac) (L := fun _ _ => True) rfl
      (fun s i hs _ => (tapStep_selfMac s i).trans hs) _ fun _ _ _ => trivial
  refine ⟨s.streams.distinct, s.streams.fits, ?_, hsame.entries, hsame.selfMac, ?_⟩
  · intro st hmem
    have hfind := (Roster.find_eq_some_iff s.streams st.src st).mpr ⟨hmem, rfl⟩
    have hacc := hok.known _ st hfind
    refine ⟨?_, ?_, hacc.dups, hacc.held⟩
    · intro hown
      rw [hok.own st.src (hself.trans hown)] at hfind
      cases hfind
    · rw [hacc.total, (horder st.src).1, (advance_inOrder (horder st.src).2).1]
  · rintro is₁ is₂ rfl
    have hrun : s = tapMachine.run (tapMachine.run (tapStart selfMac) (is₁.map Offered.input))
        (is₂.map Offered.input) := by
      rw [← tapMachine.run_append, ← List.map_append]
    rw [hrun]
    exact KindsStay.run _ _

/-- Calls with one copy in them. -/
theorem tapMirrored_of_one {is₁ is₂ : List (Offered TapInput)} {i : TapInput}
    (h₁ : ∀ j, .extra j ∉ is₁) (h₂ : ∀ j, .extra j ∉ is₂) (h : IsTapCopy (is₁.map Offered.input) i) :
    TapMirrored (is₁ ++ .extra i :: is₂) := by
  intro js₁ j js₂ hjs
  obtain ⟨rfl, hij, -⟩ := (List.append_cons_inj_of_notMem (h₁ j) (h₂ j)).mp hjs
  obtain rfl : i = j := Offered.extra.inj hij
  exact h

/-- The counters the source is heard with. -/
def countersOf (k : Mac) (is : List TapInput) : List ℕ :=
  (heardFrom k is).map fun frame => (frameCounter frame).toNat

/-- Frames whose counters rise across all sources are in the order of each of them. -/
theorem inOrder_rising (frames : List (List UInt8))
    (h : frames.Pairwise fun f g => frameCounter (cleanFrame f) < frameCounter (cleanFrame g)) (k : Mac) :
    InOrder (countersOf k (frames.map (.frame · 0))) (heardFrom k (frames.map (.frame · 0))) := by
  have haudio : ∀ f frame, audioFrom k (.frame f 0) = some frame → frame = cleanFrame f := by
    intro f frame hframe
    rw [audioFrom_frame] at hframe
    split_ifs at hframe
    exact (Option.some.inj hframe).symm
  have hrising : (heardFrom k (frames.map (.frame · 0))).Pairwise fun f g =>
      frameCounter f < frameCounter g := by
    rw [heardFrom, List.filterMap_map, List.pairwise_filterMap]
    refine h.imp ?_
    rintro f g hfg f' hf g' hg
    rw [haudio f f' hf, haudio g g' hg]
    exact hfg
  refine ⟨?_, ?_⟩
  · simp [countersOf, Function.comp_def]
  · rw [countersOf, List.isChain_map]
    refine hrising.isChain.imp ?_
    intro f g hfg
    have hg := (frameCounter g).toNat_lt
    have hlt := UInt16.lt_iff_toNat_lt.mp hfg
    omega

/-- A frame with two channels of audio. -/
def sourceFrame (src counter : UInt8) : List UInt8 :=
  List.replicate 6 0xff ++ List.replicate 6 src ++ [0x88, 0x19, counter, 0] ++ List.replicate 106 0
    ++ [0xc2, 0xea]

/-- Ten sources; the last one finds no room. -/
def tenSources : List (List UInt8) :=
  [sourceFrame 0x11 0, sourceFrame 0x12 1, sourceFrame 0x13 2, sourceFrame 0x14 3, sourceFrame 0x15 4,
    sourceFrame 0x16 5, sourceFrame 0x17 6, sourceFrame 0x18 7, sourceFrame 0x19 8, sourceFrame 0x1a 9]

/-- A copy of a frame that found no room is refused and counted as its frame was. -/
theorem tap_copies_count_refusals : ¬ ∀ (selfMac : Option Mac) (is : List (Offered TapInput))
    (number : Mac → List ℕ), TapMirrored is →
    (∀ k, InOrder (number k) (heardFrom k (is.filterMap Offered.both?))) →
    (tapMachine.run (tapStart selfMac) (is.map Offered.input)).framesOverflow =
      (tapMachine.run (tapStart selfMac) (is.filterMap Offered.both?)).framesOverflow := by
  intro h
  have hcopy : IsTapCopy ((tenSources.map fun f => Offered.both (.frame f 0)).map Offered.input)
      (.frame (sourceFrame 0x1a 9) 0) :=
    ⟨tenSources.dropLast.map (.frame · 0), sourceFrame 0x1a 9, 0, [], [], 0, rfl, by decide +kernel,
      by decide +kernel, .inl rfl, nofun⟩
  have hboth : (tenSources.map (fun f => Offered.both (TapInput.frame f 0)) ++
      [Offered.extra (TapInput.frame (sourceFrame 0x1a 9) 0)]).filterMap Offered.both? =
        tenSources.map fun f => TapInput.frame f 0 := by
    rw [List.filterMap_append, List.filterMap_map]
    rfl
  have hsame := h none
    (tenSources.map (fun f => Offered.both (.frame f 0)) ++ [.extra (.frame (sourceFrame 0x1a 9) 0)])
    (fun k => countersOf k (tenSources.map (.frame · 0)))
    (tapMirrored_of_one (by simp) (by simp) hcopy)
  rw [hboth] at hsame
  have hsame := hsame (inOrder_rising tenSources (by decide +kernel))
  revert hsame
  decide +kernel

/-- A frame, its copy behind a frame of another source, and the next frame but three. -/
def surveyOnce : List (Offered TapInput) :=
  [.both (.frame (sourceFrame 0x11 5) 0), .both (.frame (sourceFrame 0x12 6) 0)] ++
    .extra (.frame (sourceFrame 0x11 5 ++ [0xaa, 0xbb]) 0) :: [.both (.frame (sourceFrame 0x11 9) 0)]

theorem tap_survey_accounts_once :
    let base := tapMachine.run (tapStart none) (surveyOnce.filterMap Offered.both?)
    let s := tapMachine.run (tapStart none) (surveyOnce.map Offered.input)
    s.streams.entries.map TapStream.undup = base.streams.entries.map TapStream.undup ∧
      s.streams.entries.map (fun st => (st.frames, st.gaps, st.dups)) = [(2, 3, 1), (1, 0, 0)] := by
  have hcopy : IsTapCopy [.frame (sourceFrame 0x11 5) 0, .frame (sourceFrame 0x12 6) 0]
      (.frame (sourceFrame 0x11 5 ++ [0xaa, 0xbb]) 0) := by
    refine ⟨[], sourceFrame 0x11 5, 0, [.frame (sourceFrame 0x12 6) 0], [0xaa, 0xbb], 0, rfl,
      by decide +kernel, by decide +kernel, .inr (by decide +kernel), ?_⟩
    simp only [List.mem_singleton, forall_eq]
    intro _ hsrc
    exact absurd hsrc (by decide +kernel)
  obtain ⟨-, -, -, hstreams, -⟩ := tap_survey_accounts none surveyOnce
    (fun k => countersOf k (surveyOnce.filterMap Offered.both?)) (tapMirrored_of_one (by simp) (by simp) hcopy)
    (inOrder_rising [sourceFrame 0x11 5, sourceFrame 0x12 6, sourceFrame 0x11 9]
      (by decide +kernel))
  exact ⟨hstreams, by decide +kernel⟩

end Libreac
