import Libreac.Arbitration
import Libreac.Rx

/-!
# The tap's survey

The listening half of `reac_tap.c`: the roster of streams a passive tap hears, one for each source.
A unicast stream is a box's. A broadcast stream is held unresolved until a frame of its source says
what it is, or until it has run for a whole master cadence without a master-only frame. The pace of a
stream is computed exactly here, where the source divides doubles.
-/

namespace Libreac

open Reactive (Machine)

/-- `enum reac_tap_stream_kind`. -/
inductive TapStreamKind where
  | master | box | unresolved
  deriving DecidableEq, Repr

/-- `REAC_TAP_MAX_STREAMS`. -/
def tapMaxStreams : ℕ := 9

/-- `struct reac_tap_stream`. -/
structure TapStream where
  kind : TapStreamKind
  src : Mac
  channels : ℕ
  announced : Bool := false
  announcedChannels : ℕ := 0
  announcedOut : ℕ := 0
  widthDisagrees : Bool := false
  frames : ℕ := 0
  dups : ℕ := 0
  gaps : ℕ := 0
  firstTs : ℕ := 0
  lastTs : ℕ := 0
  lastCounter : UInt16 := 0
  haveCounter : Bool := false
  /-- The clean bytes of the previous frame, if it is kept. -/
  prev : Option (List UInt8) := none

/-- `struct reac_tap_survey`; `selfMac` is there when `have_self` is set. -/
structure TapSurvey where
  streams : Roster TapStream.src tapMaxStreams := Roster.empty
  framesSeen : ℕ := 0
  framesUngeometric : ℕ := 0
  framesOverflow : ℕ := 0
  framesSelf : ℕ := 0
  selfMac : Option Mac := none

/-- What `reac_tap_survey_frame` returns. -/
inductive TapVerdict where
  | notReac | duplicate | full | self
  | stream (idx : ℕ)
  deriving DecidableEq, Repr

/-! ## One stream -/

/-- `note_model`: the declaration of the source, recorded once. -/
def noteModel (st : TapStream) (frame : List UInt8) : TapStream :=
  if st.announced ∨ frame.length < 50 then st
  else
    match portsParse frame with
    | none => st
    | some ports =>
      { st with
        announced := true, announcedChannels := ports.inCh, announcedOut := ports.outCh
        widthDisagrees :=
          if ports.inCh ≠ 0 ∧ st.channels ≠ 0 then ports.inCh ≠ st.channels else st.widthDisagrees }

/-- `resolve_by_role`: the verdicts of the discovery. -/
def resolveByRole (selfMac : Option Mac) (st : TapStream) (frame : List UInt8) : TapStream :=
  if st.kind ≠ .unresolved then st
  else
    match discoClassify frame (selfMac.getD noMac) with
    | none => st
    | some sg =>
      if sg.decl ≠ none ∨ sg.role = .box ∨ st.announced then { st with kind := .box }
      else if sg.role = .master then { st with kind := .master }
      else st

/-- `stream_fps`, rounded to the nearest frame per second. -/
def TapStream.fps (st : TapStream) : ℕ :=
  let advance := st.frames + st.gaps
  let span := st.lastTs - st.firstTs
  if advance < 2 ∨ st.firstTs = 0 ∨ st.lastTs ≤ st.firstTs then 0
  else (2 * ((advance - 1) * 1000000) + span) / (2 * span)

/-- `resolve_by_frames`: a whole cadence without a master-only frame makes a box. -/
def resolveByFrames (st : TapStream) : TapStream :=
  let window := if 0 < st.fps then masterOnlyCadenceFrames st.fps else 8000
  if st.kind = .unresolved ∧ window < st.frames + st.gaps then { st with kind := .box } else st

/-- The accounting of an accepted frame: the frame kept, its counter, its time. -/
def TapStream.count (st : TapStream) (frame : List UInt8) (ts : ℕ) : TapStream :=
  let counter := frameCounter frame
  { st with
    prev := if frame.length ≤ 1556 then some frame else st.prev
    gaps := if st.haveCounter then st.gaps + (counterGap st.lastCounter counter).toNat else st.gaps
    lastCounter := counter, haveCounter := true
    firstTs := if ts ≠ 0 ∧ st.firstTs = 0 then ts else st.firstTs
    lastTs := if ts ≠ 0 then ts else st.lastTs
    frames := st.frames + 1 }

/-- An accepted frame of a stream. -/
def TapStream.take (selfMac : Option Mac) (st : TapStream) (frame : List UInt8) (ts : ℕ) : TapStream :=
  resolveByFrames (resolveByRole selfMac (noteModel (st.count frame ts) frame) frame)

/-- A frame without audio identifies a stream already heard. -/
def TapStream.identify (selfMac : Option Mac) (st : TapStream) (frame : List UInt8) : TapStream :=
  resolveByRole selfMac (noteModel st frame) frame

@[simp] theorem noteModel_src (st : TapStream) (frame : List UInt8) :
    (noteModel st frame).src = st.src := by
  unfold noteModel
  split_ifs
  · rfl
  · split <;> rfl

@[simp] theorem resolveByRole_src (selfMac : Option Mac) (st : TapStream) (frame : List UInt8) :
    (resolveByRole selfMac st frame).src = st.src := by
  unfold resolveByRole
  split_ifs
  · rfl
  · split
    · rfl
    · split_ifs <;> rfl

@[simp] theorem resolveByFrames_src (st : TapStream) : (resolveByFrames st).src = st.src := by
  unfold resolveByFrames
  dsimp only
  split_ifs <;> rfl

@[simp] theorem TapStream.take_src (selfMac : Option Mac) (st : TapStream) (frame : List UInt8)
    (ts : ℕ) : (st.take selfMac frame ts).src = st.src := by
  simp [TapStream.take, TapStream.count]

@[simp] theorem TapStream.identify_src (selfMac : Option Mac) (st : TapStream) (frame : List UInt8) :
    (st.identify selfMac frame).src = st.src := by
  simp [TapStream.identify]

/-! ## The survey -/

/-- `stream_for`: the survey with the stream of this source in it, if there is room. -/
def streamFor (s : TapSurvey) (st : TapStream) : Option TapSurvey :=
  if hs : s.streams.find st.src = none then
    if hfull : s.streams.full = true then none
    else some { s with streams := s.streams.insert st hs (by simpa using hfull) }
  else some s

/-- The stream a source opens: its direction and its width are all that is known of it. -/
def tapStreamOf (frame : List UInt8) : TapStream :=
  { kind := if macAt frame 0 ≠ broadcastMac then .box else .unresolved
    src := macAt frame 6, channels := upstreamChannels frame.length }

/-- The frame repeats the previous one of its stream. -/
def TapSurvey.repeats (s : TapSurvey) (frame : List UInt8) : Bool :=
  (s.streams.find (macAt frame 6)).any fun st => st.prev == some frame

/-- A frame with audio, in a survey that holds its stream. -/
def surveyStream (s : TapSurvey) (frame : List UInt8) (ts : ℕ) : TapSurvey × TapVerdict :=
  let src := macAt frame 6
  if s.repeats frame then
    ({ s with streams := s.streams.update src (fun st => { st with dups := st.dups + 1 }) fun _ => rfl },
      .duplicate)
  else
    ({ s with streams := s.streams.update src (·.take s.selfMac frame ts) (by simp) },
      .stream (s.streams.entries.findIdx fun st => st.src = src))

/-- `reac_tap_survey_frame`. -/
def surveyFrame (s : TapSurvey) (bytes : List UInt8) (ts : ℕ) : TapSurvey × TapVerdict :=
  if !frameIsReac bytes then (s, .notReac)
  else
    let s := { s with framesSeen := s.framesSeen + 1 }
    let frame := cleanFrame bytes
    let src := macAt frame 6
    if s.selfMac = some src then ({ s with framesSelf := s.framesSelf + 1 }, .self)
    else if upstreamChannels frame.length = 0 then
      -- A control-only shape opens no stream.
      ({ s with
        framesUngeometric := s.framesUngeometric + 1
        streams := s.streams.update src (·.identify s.selfMac frame) (by simp) }, .notReac)
    else
      match streamFor s (tapStreamOf frame) with
      | none => ({ s with framesOverflow := s.framesOverflow + 1 }, .full)
      | some s => surveyStream s frame ts

/-! ## The survey over time -/

/-- `resolve_by_time`: a stream that has been heard for a whole master cadence is a box's. -/
def resolveByTime (now : ℕ) (st : TapStream) : TapStream :=
  if st.kind ≠ .unresolved ∨ st.firstTs = 0 then st
  else if st.firstTs < now ∧ masterOnlyCadenceNs st.fps ≤ (now - st.firstTs) * 1000 then
    { st with kind := .box }
  else st

@[simp] theorem resolveByTime_src (now : ℕ) (st : TapStream) :
    (resolveByTime now st).src = st.src := by
  unfold resolveByTime
  split_ifs <;> rfl

/-- `reac_tap_survey_resolve`: the survey, and how many streams are still held. -/
def surveyResolve (s : TapSurvey) (now : ℕ) : TapSurvey × ℕ :=
  let s := { s with streams := s.streams.mapAll (resolveByTime now) (by simp) }
  (s, s.streams.entries.countP fun st => st.kind = .unresolved)

/-- The calls of a survey. -/
inductive TapInput where
  | frame (bytes : List UInt8) (ts : ℕ)
  | resolve (now : ℕ)
  deriving DecidableEq

/-- What a call returns. -/
inductive TapAnswer where
  | verdict (v : TapVerdict)
  | held (n : ℕ)

/-- One call. -/
def tapStep (s : TapSurvey) : TapInput → TapSurvey × TapAnswer
  | .frame bytes ts => ((surveyFrame s bytes ts).1, .verdict (surveyFrame s bytes ts).2)
  | .resolve now => ((surveyResolve s now).1, .held (surveyResolve s now).2)

/-- The survey under its calls. -/
def tapMachine : Machine TapSurvey TapInput TapAnswer := ⟨tapStep⟩

@[simp] theorem tapMachine_step (s : TapSurvey) (i : TapInput) : tapMachine.step s i = tapStep s i := rfl

/-- `reac_tap_survey_init` and `reac_tap_survey_set_self`. -/
def tapStart (selfMac : Option Mac) : TapSurvey := { selfMac }

end Libreac
