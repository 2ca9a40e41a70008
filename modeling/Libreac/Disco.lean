import Libreac.Ctrl
import Libreac.Roster

/-!
# Passive discovery

`reac_disco.c`: what a frame says about its sender, the gate that decides which of these sightings
reach the main thread, and the table the main thread keeps. The gate and the table remember the same
peers separately: the gate never forgets one, the table withdraws those it has not heard for a while.
Times are nanoseconds of the monotonic clock; every subtraction of the source is guarded.
-/

namespace Libreac

/-- `enum reac_disco_role`. -/
inductive DiscoRole where
  | unknown | box | master
  deriving DecidableEq, Repr

/-- `REAC_DISCO_MAX`. -/
def discoMax : ℕ := 8

/-- `REAC_DISCO_STALE_NS`. -/
def discoStaleNs : ℕ := 5000000000

/-- `REAC_DISCO_REFRESH_NS`. -/
def discoRefreshNs : ℕ := 1000000000

/-- `REAC_MAX_CHANNELS`. -/
def reacMaxChannels : ℕ := 40

/-- `struct reac_disco_sighting`; the two declared widths are there when `has_decl` is set. -/
structure Sighting where
  mac : Mac
  role : DiscoRole
  decl : Option (UInt8 × UInt8) := none
  family : UInt8 := 0
  announcedSlots : UInt8 := 0
  channels : ℕ := 0
  deriving DecidableEq

/-! ## The classifier -/

/-- `is_box_join`: the records of a box's cold-connect escalation. -/
def isBoxJoin (p : CtrlParsed) : Bool :=
  p.opcode = 0x00 ∧ (p.dt1Tag = 0x0100 ∨ p.dt1Tag = 0x0302 ∨ p.dt1Tag = 0x0500)

/-- `role_of`: only captured signatures name a role. -/
def roleOf (p : CtrlParsed) : DiscoRole :=
  match p.kind with
  | .filler => if p.isBroadcast then .unknown else .box
  | .masterAnnounce | .masterHb => .master
  | .boxHb => .box
  | .headamp => .master
  | .grant => if isBoxJoin p then .box else .master
  | .configAnnounce => .box
  | .sceneTransfer => .master
  | _ => .unknown

/-- `struct reac_disco_peer_lock`. -/
structure PeerLock where
  mac : Mac := noMac
  locked : Bool := false
  deriving DecidableEq

/-- `reac_frame_channels`. -/
def frameChannels (len : ℕ) : ℕ :=
  if len < 52 then 0 else if (len - 52) % 36 ≠ 0 then 0 else (len - 52) / 36

/-- The slot total of a master announce, 0 if the frame is not one. -/
def announcedSlotsOf (frame : List UInt8) : UInt8 :=
  let b := fun i => byteAt frame (18 + i)
  if 50 ≤ frame.length ∧ byteAt frame 16 = 0xcf ∧ byteAt frame 17 = 0xea ∧ b 4 = 0x01 ∧ b 5 = 0x03 ∧
      b 6 = 0x0d ∧ b 7 = 0x01 ∧ b 8 = 0x04 then b 15
  else 0

/-- The declared widths, when the block reads as a port table and both are legal. -/
def declOf (frame : List UInt8) : Option (UInt8 × UInt8) :=
  match (if 50 ≤ frame.length then portsParse frame else none) with
  | none => none
  | some ports =>
    if ports.inCh ≤ reacMaxChannels ∧ ports.outCh ≤ reacMaxChannels then
      some (ports.inCh.toUInt8, ports.outCh.toUInt8)
    else none

/-- The sighting of a frame the classifier takes. -/
def sightingOf (p : CtrlParsed) (frame : List UInt8) : Sighting :=
  { mac := p.src, role := roleOf p, decl := declOf frame, announcedSlots := announcedSlotsOf frame
    channels := frameChannels frame.length }

/-- The first verified control frame of a segment latches its source. -/
def PeerLock.latch (lock : PeerLock) (src : Mac) : PeerLock :=
  if lock.locked then lock else { mac := src, locked := true }

/-- `classify_core`; the plain entry point has no lock. -/
def classifyCore (lock : Option PeerLock) (frame : List UInt8) (ourMac : Mac) :
    Option PeerLock × Option Sighting :=
  let p := ctrlParse frame
  if p.kind = .none then (lock, none)
  else if p.src = ourMac then (lock, none)
  else if p.kind ≠ .filler then
    if !checksumVerify frame then (lock, none)
    else (lock.map fun l => l.latch p.src, some (sightingOf p frame))
  -- A FILLER is checksum-exempt, so it proves nothing against the peer already proven.
  else if lock.any fun l => l.locked && l.mac != p.src then (lock, none)
  else (lock, some (sightingOf p frame))

/-- `reac_disco_classify`. -/
def discoClassify (frame : List UInt8) (ourMac : Mac) : Option Sighting :=
  (classifyCore none frame ourMac).2

/-- `reac_disco_classify_on_segment`. -/
def discoClassifyOnSegment (lock : PeerLock) (frame : List UInt8) (ourMac : Mac) :
    PeerLock × Option Sighting :=
  let (l, s) := classifyCore (some lock) frame ourMac
  (l.getD lock, s)

/-! ## The announce gate -/

/-- `struct reac_disco_gate_entry`; the declaration key is the pair of widths. -/
structure GateEntry where
  mac : Mac
  role : DiscoRole
  declKey : Option (UInt8 × UInt8)
  announcedSlots : UInt8
  lastPush : ℕ

/-- `struct reac_disco_gate`. -/
abbrev DiscoGate := Roster GateEntry.mac discoMax

/-- The sighting knows a role, a declaration or a slot count the gate does not. -/
def GateEntry.edge (e : GateEntry) (s : Sighting) : Bool :=
  (s.role ≠ .unknown ∧ s.role ≠ e.role) ∨ (s.decl ≠ none ∧ s.decl ≠ e.declKey) ∨
    (s.announcedSlots ≠ 0 ∧ s.announcedSlots ≠ e.announcedSlots)

/-- The refresh window is over, or the clock has stepped back. -/
def GateEntry.refreshDue (e : GateEntry) (now : ℕ) : Bool :=
  now < e.lastPush ∨ discoRefreshNs ≤ now - e.lastPush

/-- What the gate remembers of an edge. -/
def GateEntry.note (e : GateEntry) (s : Sighting) (now : ℕ) : GateEntry :=
  { e with
    role := if s.role ≠ .unknown then s.role else e.role
    announcedSlots := if s.announcedSlots ≠ 0 then s.announcedSlots else e.announcedSlots
    declKey := if s.decl ≠ none then s.decl else e.declKey
    lastPush := now }

/-- A refresh only moves the window. -/
def GateEntry.refreshed (e : GateEntry) (now : ℕ) : GateEntry := { e with lastPush := now }

/-- The entry of a peer the gate hears for the first time. -/
def gateEntryOf (s : Sighting) (now : ℕ) : GateEntry :=
  { mac := s.mac, role := s.role, declKey := s.decl, announcedSlots := s.announcedSlots
    lastPush := now }

@[simp] theorem GateEntry.note_mac (e : GateEntry) (s : Sighting) (now : ℕ) :
    (e.note s now).mac = e.mac := rfl

@[simp] theorem GateEntry.refreshed_mac (e : GateEntry) (now : ℕ) : (e.refreshed now).mac = e.mac := rfl

@[simp] theorem gateEntryOf_mac (s : Sighting) (now : ℕ) : (gateEntryOf s now).mac = s.mac := rfl

/-- `reac_disco_gate_should_push`. -/
def gateShouldPush (g : DiscoGate) (s : Sighting) (now : ℕ) : DiscoGate × Bool :=
  match hs : g.find s.mac with
  | some e =>
    if e.edge s then (g.update s.mac (·.note s now) (·.note_mac s now), true)
    else if e.refreshDue now then (g.update s.mac (·.refreshed now) (·.refreshed_mac now), true)
    else (g, false)
  | none =>
    if hfull : g.full = true then (g, false)
    else (g.insert (gateEntryOf s now) (by simpa using hs) (by simpa using hfull), true)

/-! ## The table -/

/-- `struct reac_disco_entry`. -/
structure DiscoEntry where
  mac : Mac
  role : DiscoRole
  decl : Option (UInt8 × UInt8)
  family : UInt8
  announcedSlots : UInt8
  channels : ℕ
  owned : Bool
  frames : ℕ
  firstSeen : ℕ
  lastSeen : ℕ

/-- `struct reac_disco_table`. -/
structure DiscoTable where
  peers : Roster DiscoEntry.mac discoMax := Roster.empty
  overflowed : Bool := false
  seq : UInt32 := 0

/-- The entry takes the role of the sighting. A box does not un-prove itself. -/
def DiscoEntry.takesRole (e : DiscoEntry) (s : Sighting) : Bool :=
  s.role ≠ .unknown ∧ e.role ≠ s.role ∧ ¬(e.role = .box ∧ s.role = .master)

/-- The entry takes the declaration of the sighting. -/
def DiscoEntry.takesDecl (e : DiscoEntry) (s : Sighting) : Bool := s.decl ≠ none ∧ e.decl ≠ s.decl

/-- The entry takes the slot count of the sighting. -/
def DiscoEntry.takesSlots (e : DiscoEntry) (s : Sighting) : Bool :=
  s.announcedSlots ≠ 0 ∧ e.announcedSlots ≠ s.announcedSlots

/-- The entry takes the family of the sighting. -/
def DiscoEntry.takesFamily (e : DiscoEntry) (s : Sighting) : Bool :=
  s.family ≠ 0 ∧ e.family ≠ s.family

/-- A known peer heard again: facts only sharpen, and the widest geometry wins. -/
def DiscoEntry.sharpen (e : DiscoEntry) (s : Sighting) (owned : Bool) (now : ℕ) : DiscoEntry :=
  { e with
    lastSeen := now
    frames := if e.frames ≠ 4294967295 then e.frames + 1 else e.frames
    role := if e.takesRole s then s.role else e.role
    decl := if e.takesDecl s then s.decl else e.decl
    announcedSlots := if e.takesSlots s then s.announcedSlots else e.announcedSlots
    family := if e.takesFamily s then s.family else e.family
    channels := if e.channels < s.channels then s.channels else e.channels
    owned := e.owned || owned }

/-- Whether one of these facts changed. -/
def DiscoEntry.changes (e : DiscoEntry) (s : Sighting) (owned : Bool) : Bool :=
  e.takesRole s || e.takesDecl s || e.takesSlots s || e.takesFamily s ||
    decide (e.channels < s.channels) || (owned && !e.owned)

/-- The entry of a new peer. -/
def discoEntryOf (s : Sighting) (owned : Bool) (now : ℕ) : DiscoEntry :=
  { mac := s.mac, role := s.role, decl := s.decl, family := s.family
    announcedSlots := s.announcedSlots, channels := s.channels, owned, frames := 1
    firstSeen := now, lastSeen := now }

@[simp] theorem DiscoEntry.sharpen_mac (e : DiscoEntry) (s : Sighting) (owned : Bool) (now : ℕ) :
    (e.sharpen s owned now).mac = e.mac := rfl

@[simp] theorem discoEntryOf_mac (s : Sighting) (owned : Bool) (now : ℕ) :
    (discoEntryOf s owned now).mac = s.mac := rfl

/-- `reac_disco_table_observe`: the table, and whether it changed observably. -/
def tableObserve (t : DiscoTable) (s : Sighting) (owned : Bool) (now : ℕ) : DiscoTable × Bool :=
  match hs : t.peers.find s.mac with
  | some e =>
    let changed := e.changes s owned
    ({ t with
      peers := t.peers.update s.mac (·.sharpen s owned now) (·.sharpen_mac s owned now)
      seq := if changed then t.seq + 1 else t.seq }, changed)
  | none =>
    if hfull : t.peers.full = true then
      -- Saturate rather than evict, and say so once.
      (if t.overflowed then t else { t with overflowed := true, seq := t.seq + 1 }, false)
    else
      ({ t with
        peers := t.peers.insert (discoEntryOf s owned now) (by simpa using hs) (by simpa using hfull)
        seq := t.seq + 1 }, true)

/-- The peer has not been heard for too long. -/
def DiscoEntry.stale (e : DiscoEntry) (now : ℕ) : Bool :=
  e.lastSeen < now ∧ discoStaleNs < now - e.lastSeen

/-- `reac_disco_table_age`. -/
def tableAge (t : DiscoTable) (now : ℕ) : DiscoTable :=
  let peers := t.peers.retain fun e => !e.stale now
  { t with
    peers, seq := if peers.entries.length ≠ t.peers.entries.length then t.seq + 1 else t.seq }

end Libreac
