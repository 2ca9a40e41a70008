import Libreac.BoxSynth
import Libreac.Pacer
import Libreac.Seqlock

/-!
# What another thread reads of the pacer

The identity of the box is written by the pacer and read by a thread that does not write it, behind a
sequence lock (`identity_write_begin`, `identity_write_end`, `reac_pacer_read_identity`). It is given here as
the stores and the copying of the source, an array byte by byte. The source has a release fence on either
side of the stores, an acquiring load in front of the copying and an acquire fence behind it, so the number
is written and read around the data, as `Seqlock` takes it.
-/

namespace Libreac

open Seqlock (Protocol)
open Seqlock.Protocol (Part cellCopies cellStores)

/-- The string in an array: what is in front of the first NUL. -/
def cText {n : ℕ} (a : Fin n → UInt8) : List UInt8 := (List.ofFn a).takeWhile (· ≠ 0)

/-! ## The identity of the box -/

/-- `struct reac_identity` in memory. -/
structure IdentityMem where
  fwMilli : UInt16 := 0
  hasFw : Bool := false
  modelName : Fin 17 → UInt8 := fun _ => 0
  hasModelName : Bool := false
  reacVersionMajor : UInt16 := 0
  reacVersionMinor : UInt16 := 0
  reacVersionPatch : UInt16 := 0
  reacVersionRaw : Fin 8 → UInt8 := fun _ => 0
  hasReacVersion : Bool := false

/-- What it says. -/
def IdentityMem.identity (m : IdentityMem) : Identity :=
  { fwMilli := m.fwMilli, hasFw := m.hasFw
    modelName := cText m.modelName, hasModelName := m.hasModelName
    reacVersionMajor := m.reacVersionMajor, reacVersionMinor := m.reacVersionMinor
    reacVersionPatch := m.reacVersionPatch, reacVersionRaw := List.ofFn m.reacVersionRaw
    hasReacVersion := m.hasReacVersion }

/-- Its two arrays. -/
def namePart : Part IdentityMem (Fin 17 → UInt8) where
  get m := m.modelName
  set a m := { m with modelName := a }
  get_set _ _ := rfl
  set_set _ _ _ := rfl
  set_get _ := rfl

def rawPart : Part IdentityMem (Fin 8 → UInt8) where
  get m := m.reacVersionRaw
  set a m := { m with reacVersionRaw := a }
  get_set _ _ := rfl
  set_set _ _ _ := rfl
  set_get _ := rfl

/-- What is written under the lock: the box is forgotten, or a record of its page is taken. -/
inductive IdentityWrite where
  | forget
  | ingest (addrLo : UInt16) (payload : List UInt8)
  deriving DecidableEq

/-- `memset` on the identity. -/
def identityInit : List (IdentityMem → IdentityMem) :=
  [fun m => { m with fwMilli := 0 }, fun m => { m with hasFw := false }] ++
    namePart.stores (cellStores fun _ => 0) ++
    [fun m => { m with hasModelName := false }, fun m => { m with reacVersionMajor := 0 },
      fun m => { m with reacVersionMinor := 0 }, fun m => { m with reacVersionPatch := 0 }] ++
    rawPart.stores (cellStores fun _ => 0) ++ [fun m => { m with hasReacVersion := false }]

/-- A byte of an array. -/
def storeAt {n : ℕ} (i : ℕ) (c : UInt8) (a : Fin n → UInt8) : Fin n → UInt8 := fun j => if j.val = i then c else a j

/-- The loop of `store_model_name` and the terminator behind it. -/
def nameStores (name : List UInt8) : List ((Fin 17 → UInt8) → Fin 17 → UInt8) :=
  (name.zipIdx.map fun x => storeAt x.2 x.1) ++ [storeAt name.length 0]

/-- `reac_identity_ingest`, store by store. -/
def ingestStores (addrLo : UInt16) (payload : List UInt8) : List (IdentityMem → IdentityMem) :=
  if addrLo = 0x0000 then
    match firmwareMilli payload with
    | some v => [fun m => { m with fwMilli := v }, fun m => { m with hasFw := true }]
    | none => []
  else if addrLo = 0x1000 then
    let name := (payload.tail.take 16).takeWhile (· ≠ 0)
    if name = [] then [] else namePart.stores (nameStores name) ++ [fun m => { m with hasModelName := true }]
  else if addrLo = 0x0600 then
    if payload.length < 8 then []
    else
      let w := fun i => u16be (byteAt payload i) (byteAt payload (i + 1))
      rawPart.stores (cellStores fun i => byteAt payload i) ++
        [fun m => { m with reacVersionMajor := w 2 }, fun m => { m with reacVersionMinor := w 4 },
          fun m => { m with reacVersionPatch := w 6 }, fun m => { m with hasReacVersion := true }]
  else []

/-- The stores of a write: `sync_published_box` forgets only what has been heard. -/
def identityStores (w : IdentityWrite) (m : IdentityMem) : Option (List (IdentityMem → IdentityMem)) :=
  match w with
  | .forget => if m.hasFw || m.hasModelName || m.hasReacVersion then some identityInit else none
  | .ingest addrLo payload => some (ingestStores addrLo payload)

/-- The copy of `reac_pacer_read_identity`, member by member. -/
def identityCopies : List (IdentityMem → IdentityMem → IdentityMem) :=
  [fun m out => { out with fwMilli := m.fwMilli }, fun m out => { out with hasFw := m.hasFw }] ++
    namePart.copies (cellCopies fun i a _ => a i) ++
    [fun m out => { out with hasModelName := m.hasModelName },
      fun m out => { out with reacVersionMajor := m.reacVersionMajor },
      fun m out => { out with reacVersionMinor := m.reacVersionMinor },
      fun m out => { out with reacVersionPatch := m.reacVersionPatch }] ++
    rawPart.copies (cellCopies fun i a _ => a i) ++
    [fun m out => { out with hasReacVersion := m.hasReacVersion }]

/-- The published identity. -/
def publishedIdentity : Protocol IdentityMem IdentityWrite := ⟨identityStores, identityCopies⟩

/-! ## What the pacer writes -/

/-- A write, all at once, on the identity the pacer holds. -/
def IdentityWrite.apply (id : Identity) : IdentityWrite → Identity
  | .forget => if id.hasFw || id.hasModelName || id.hasReacVersion then {} else id
  | .ingest addrLo payload => identityIngest id addrLo payload

/-- The record `reac_pacer_rx_ingest` takes from a frame, if any. -/
def Pacer.ingestWrites (p : Pacer) (frame : List UInt8) : List IdentityWrite :=
  if !p.fromOurs frame then []
  else
    match (identityReply frame).or (identityFragment p.rxIdentityFrag frame).2 with
    | some (addrLo, payload) => [.ingest addrLo payload]
    | none => []

/-- What `sync_published_box` writes once the master has stepped. -/
def Pacer.syncWrites (p : Pacer) : List IdentityWrite := if p.master.hasBox then [] else [.forget]

/-- What a step of the pacer writes under the lock. -/
def identityWrites (env : Env) (p : Pacer) : PacerInput → List IdentityWrite
  | .frame bytes =>
    let frame := cleanFrame bytes
    p.ingestWrites frame ++
      match classifyBoxFrame frame p.src with
      | some (parsed, ev) =>
        if (rxIdentityPass p frame).master.peerAccepts parsed.src ev then (rxIngest env p bytes).1.syncWrites else []
      | none => []
  | .slot =>
    let q := (rateDrain env p).1
    if (masterNext env.tunables q.headamp q.master).1.state ≠ q.prevState then (pacerSlot env p).1.syncWrites else []
  | _ => []

/-- What a run of the pacer writes. -/
def identityWritesOf (env : Env) : Pacer → List PacerInput → List IdentityWrite
  | _, [] => []
  | p, i :: is => identityWrites env p i ++ identityWritesOf env (pacerStep env p i).1 is

end Libreac
