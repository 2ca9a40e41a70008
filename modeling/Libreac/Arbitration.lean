import Mathlib.Data.List.MinMax
import Libreac.Disco

/-!
# Who drives the segment

`reac_arbitration.c`: the aggregate of the discovery table. It decides nothing; it names the newest
live master that is not us, and what that rival is. A rival is told apart by what it declared and
announced, then by the width of its broadcast. A broadcast sender that has named no role is held for
one master-only cadence and is a box from then on.
-/

namespace Libreac

/-- `enum reac_segment_master`. -/
inductive SegmentMaster where
  | none | us | foreign
  deriving DecidableEq, Repr

/-- `enum reac_pace_source`. -/
inductive PaceSource where
  | freeRun | foreignMaster | phc | graphRef | boxSlope
  deriving DecidableEq, Repr

/-- `enum reac_rival_kind`. -/
inductive RivalKind where
  | none | desk | box | unknown | pending
  deriving DecidableEq, Repr

/-- `struct reac_arbitration`; the address is there when `have_mac` is set. -/
structure Arbitration where
  state : SegmentMaster := .none
  mac : Option Mac := none
  pace : PaceSource := .freeRun
  conflict : Bool := false
  rival : RivalKind := .none
  rivalChannels : ℕ := 0

/-! ## The rival -/

/-- The peer masters the segment, is not us, and has been heard lately. -/
def DiscoEntry.mastersAgainst (e : DiscoEntry) (ourMac : Mac) (now : ℕ) : Bool :=
  e.role = .master ∧ e.mac ≠ ourMac ∧ e.stale now = false

/-- `foreign_master`: the newest of these, and the first of the newest. -/
def foreignMaster (t : DiscoTable) (ourMac : Mac) (now : ℕ) : Option DiscoEntry :=
  (t.peers.entries.filter fun e => e.mastersAgainst ourMac now).argmax DiscoEntry.lastSeen

/-- `reac_rival_kind_of`. -/
def rivalKindOf (e : DiscoEntry) : RivalKind :=
  if e.decl ≠ none ∨ e.role = .box then .box
  else if e.announcedSlots ≠ 0 ∧ e.announcedSlots.toNat < reacMaxChannels then .box
  else if e.channels = 0 then .unknown
  else if e.channels < reacMaxChannels then .box
  else if e.role ≠ .master then .unknown
  else if e.announcedSlots.toNat = reacMaxChannels then .desk
  else .pending

/-- `reac_arbitrate`. -/
def arbitrate (t : DiscoTable) (ourMac : Mac) (fsm : MasterState) (ownPace : PaceSource) (now : ℕ) :
    Arbitration :=
  let rival := foreignMaster t ourMac now
  if fsm = .established ∨ fsm = .granting then
    { state := .us, mac := some ourMac, pace := ownPace, conflict := rival.isSome
      rival := rival.elim .none rivalKindOf, rivalChannels := rival.elim 0 DiscoEntry.channels }
  else
    match rival with
    | some e =>
      { state := .foreign, mac := some e.mac, pace := .foreignMaster, rival := rivalKindOf e
        rivalChannels := e.channels }
    | none =>
      if fsm = .probing then { state := .us, mac := some ourMac, pace := ownPace }
      else { pace := ownPace }

/-! ## The broadcast sender -/

/-- `reac_rate_snap` on a whole number of frames per second: the midpoints are 3837.5 and 6000. -/
def rateSnap (fps : ℕ) : ℕ := if fps < 3838 then 44100 else if fps < 6000 then 48000 else 96000

/-- `reac_master_only_cadence_frames`, at the pace `reac_rate_snap` takes it for. -/
def masterOnlyCadenceFrames (fps : ℕ) : ℕ :=
  if fps = 0 then 0 else if fps < 3838 then 3675 else if fps < 6000 then 4000 else 8000

/-- `frames_ns`: twelve samples to a frame. -/
def framesNs (frames sampleRate : ℕ) : ℕ := frames * 1000000000 * 12 / sampleRate

/-- `reac_master_only_cadence_ns`: without a pace, the longest of the three. -/
def masterOnlyCadenceNs (fps : ℕ) : ℕ :=
  if 0 < fps then framesNs (masterOnlyCadenceFrames fps) (rateSnap fps)
  else
    [44100, 48000, 96000].foldl
      (fun longest rate => max longest (framesNs (masterOnlyCadenceFrames (rate / 12)) rate)) 0

/-- `reac_sender_kind`. -/
def senderKind (e : DiscoEntry) (now fps : ℕ) : RivalKind :=
  if e.decl ≠ none ∨ e.role = .box ∨ e.role = .master then rivalKindOf e
  else if e.channels = 0 then .unknown
  else if now ≤ e.firstSeen ∨ now - e.firstSeen < masterOnlyCadenceNs fps then .unknown
  else .box

end Libreac
