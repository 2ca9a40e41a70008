import Libreac.Machine
import Libreac.Slots

/-!
# The VLANs behind a trunk

`reac_topo.c`: which VLANs are heard on each watched parent, and which netdevs are to be made or
removed for them. The caller takes the ENSURE and RELEASE requests out of a bounded ring and answers
each ENSURE. A name is its bytes in front of the NUL, and the empty name marks a free slot.
-/

namespace Libreac

open Reactive Slots

/-- The name of a network interface. -/
abbrev IfName := List UInt8

/-- `snprintf(.., IFNAMSIZ, "%s", name)`: fifteen bytes and the NUL. -/
def ifnamCopy (name : IfName) : IfName := name.take 15

/-- `REAC_TOPO_MAX_PARENTS`. -/
def topoMaxParents : ℕ := 8

/-- `REAC_TOPO_MAX_VLANS`. -/
def topoMaxVlans : ℕ := 16

/-- `REAC_TOPO_SILENCE_HOLD_NS`. -/
def topoSilenceHoldNs : UInt64 := 30000000000

/-- `REAC_TOPO_RETRY_NS`. -/
def topoRetryNs : UInt64 := 10000000000

/-- `REAC_TOPO_EVENTS`. -/
def topoEvents : ℕ := 32

/-- `enum reac_topo_kind`. -/
inductive TopoKind where
  | notReac | untagged | tagged | taggedOther
  deriving DecidableEq, Repr

/-- `enum reac_topo_vstate`. -/
inductive VlanState where
  | free | heard | served
  deriving DecidableEq, Repr

/-- `enum reac_topo_verb`, the two requests. -/
inductive TopoVerb where
  | ensure | release
  deriving DecidableEq, Repr

/-- `struct reac_topo_event`. -/
structure TopoEvent where
  verb : TopoVerb
  parent : IfName
  vid : UInt16
  minted : Bool := false
  deriving DecidableEq, Repr

/-- `struct reac_topo_vlan`. -/
structure TopoVlan where
  vid : UInt16 := 0
  state : VlanState := .free
  lastNs : UInt64 := 0
  retryAfterNs : UInt64 := 0
  minted : Bool := false
  deriving DecidableEq

/-- `struct reac_topo_parent`. -/
structure TopoParent where
  name : IfName := []
  vlans : List TopoVlan := List.replicate topoMaxVlans {}
  tagged : ℕ := 0
  untagged : ℕ := 0

/-- `struct reac_topo`; `ring` holds the events between `ev_head` and `ev_tail`. -/
structure Topo where
  parents : List TopoParent := List.replicate topoMaxParents {}
  ring : List TopoEvent := []
  unbounded : ℕ := 0
  droppedEv : ℕ := 0

/-- `reac_topo_init`. -/
def topoInit : Topo := {}

/-! ## The ring -/

/-- `emit`: one slot of the ring stays empty, so it is full with 31 events. -/
def Topo.emit (t : Topo) (e : TopoEvent) : Topo :=
  if t.ring.length + 1 < topoEvents then { t with ring := t.ring ++ [e] }
  else { t with droppedEv := t.droppedEv + 1 }

/-- The events of a loop, one after the other. -/
def Topo.emitAll (t : Topo) (es : List TopoEvent) : Topo := es.foldl Topo.emit t

/-- `reac_topo_next`. -/
def topoNext (t : Topo) : Topo × Option TopoEvent :=
  match t.ring with
  | [] => (t, none)
  | e :: ring => ({ t with ring }, some e)

/-! ## Looking up -/

/-- The slot of the watched parent `name`. -/
def TopoParent.is (name : IfName) (p : TopoParent) : Bool := p.name ≠ [] ∧ p.name = name

/-- The slot of the VLAN `vid`. -/
def TopoVlan.is (vid : UInt16) (v : TopoVlan) : Bool := v.state ≠ .free ∧ v.vid = vid

/-- `parent_of`. -/
def Topo.parentOf (t : Topo) (name : IfName) : Option TopoParent := t.parents.find? (TopoParent.is name)

/-- `vlan_of`. -/
def Topo.vlanOf (t : Topo) (name : IfName) (vid : UInt16) : Option TopoVlan :=
  (t.parentOf name).bind fun p => p.vlans.find? (TopoVlan.is vid)

/-- Write through the pointer `parent_of` returns. -/
def Topo.setParent (t : Topo) (name : IfName) (f : TopoParent → TopoParent) : Topo :=
  { t with parents := alterFirst (TopoParent.is name) f t.parents }

/-- Write through the pointer `vlan_of` returns. -/
def Topo.setVlan (t : Topo) (name : IfName) (vid : UInt16) (f : TopoVlan → TopoVlan) : Topo :=
  t.setParent name fun p => { p with vlans := alterFirst (TopoVlan.is vid) f p.vlans }

/-! ## The operations -/

/-- `reac_topo_watch`. -/
def topoWatch (t : Topo) (name : IfName) : Topo :=
  if (t.parentOf name).isSome then t
  else if t.parents.any (·.name = []) then
    { t with parents := alterFirst (·.name = []) (fun _ => { name := ifnamCopy name }) t.parents }
  else { t with unbounded := t.unbounded + 1 }

/-- The RELEASE requests for the VLANs of a parent that `p` picks. -/
def TopoParent.releases (p : TopoParent) (pick : TopoVlan → Bool) : List TopoEvent :=
  (p.vlans.filter pick).map fun v => { verb := .release, parent := p.name, vid := v.vid, minted := v.minted }

/-- The VLAN has a netdev. -/
def TopoVlan.isServed (v : TopoVlan) : Bool := v.state = .served

/-- `reac_topo_unwatch`. -/
def topoUnwatch (t : Topo) (name : IfName) : Topo :=
  match t.parentOf name with
  | none => t
  | some p => (t.setParent name fun _ => {}).emitAll (p.releases TopoVlan.isServed)

/-- `reac_topo_saw` on a tagged frame of a watched parent, behind the counter. -/
def topoSawVlan (t : Topo) (p : TopoParent) (vid : UInt16) (now : UInt64) : Topo :=
  match p.vlans.find? (TopoVlan.is vid) with
  | some v =>
    -- The retry of a failed ensure, once its window is spent.
    if v.state = .heard ∧ v.retryAfterNs ≠ 0 ∧ v.retryAfterNs ≤ now then
      (t.setVlan p.name vid fun v => { v with lastNs := now, retryAfterNs := 0 }).emit
        { verb := .ensure, parent := p.name, vid }
    else t.setVlan p.name vid fun v => { v with lastNs := now }
  | none =>
    if p.vlans.any (·.state = .free) then
      (t.setParent p.name fun p => { p with
        vlans := alterFirst (·.state = .free) (fun _ => { vid, state := .heard, lastNs := now }) p.vlans }).emit
          { verb := .ensure, parent := p.name, vid }
    else { t with unbounded := t.unbounded + 1 }

/-- `reac_topo_saw`. -/
def topoSaw (t : Topo) (name : IfName) (kind : TopoKind) (vid : UInt16) (now : UInt64) : Topo :=
  match t.parentOf name with
  | none => t
  | some p =>
    match kind with
    | .notReac => t
    | .untagged => t.setParent name fun p => { p with untagged := p.untagged + 1 }
    | .tagged =>
      if vid = 0 then t
      else topoSawVlan (t.setParent name fun p => { p with tagged := p.tagged + 1 }) p vid now
    | .taggedOther => if vid = 0 then t else topoSawVlan t p vid now

/-- `reac_topo_ensured`. -/
def topoEnsured (t : Topo) (name : IfName) (vid : UInt16) (minted : Bool) : Topo :=
  if (t.vlanOf name vid).isSome then
    t.setVlan name vid fun v => { v with state := .served, minted, retryAfterNs := 0 }
  else t

/-- `reac_topo_ensure_failed`. -/
def topoEnsureFailed (t : Topo) (name : IfName) (vid : UInt16) (now : UInt64) : Topo :=
  if (t.vlanOf name vid).isSome then
    t.setVlan name vid fun v =>
      { v with state := .heard, minted := false, retryAfterNs := now + topoRetryNs }
  else t

/-- The loop `reac_topo_tick` and `reac_topo_release_all` share: a VLAN that `pick` picks is released
and its slot zeroed, in slot order. -/
def Topo.releaseWhere (t : Topo) (pick : TopoVlan → Bool) : Topo :=
  let clear := fun p : TopoParent =>
    if p.name = [] then p else { p with vlans := p.vlans.map fun v => if pick v then {} else v }
  Topo.emitAll { t with parents := t.parents.map clear }
    (t.parents.flatMap fun p => if p.name = [] then [] else p.releases pick)

/-- A served VLAN that has been silent past the hold. -/
def TopoVlan.silent (now : UInt64) (v : TopoVlan) : Bool :=
  v.state = .served ∧ v.lastNs + topoSilenceHoldNs ≤ now

/-- `reac_topo_tick`. -/
def topoTick (t : Topo) (now : UInt64) : Topo := t.releaseWhere (TopoVlan.silent now)

/-- `reac_topo_release_all`. -/
def topoReleaseAll (t : Topo) : Topo := t.releaseWhere TopoVlan.isServed

/-! ## The table as a machine -/

/-- The calls of the owner. -/
inductive TopoInput where
  | watch (name : IfName)
  | unwatch (name : IfName)
  | saw (name : IfName) (kind : TopoKind) (vid : UInt16) (now : UInt64)
  | next
  | ensured (name : IfName) (vid : UInt16) (minted : Bool)
  | ensureFailed (name : IfName) (vid : UInt16) (now : UInt64)
  | tick (now : UInt64)
  | releaseAll
  deriving DecidableEq

/-- One call, with what `reac_topo_next` hands out. -/
def topoStep (t : Topo) (i : TopoInput) : Topo × Option TopoEvent :=
  match i with
  | .watch name => (topoWatch t name, none)
  | .unwatch name => (topoUnwatch t name, none)
  | .saw name kind vid now => (topoSaw t name kind vid now, none)
  | .next => topoNext t
  | .ensured name vid minted => (topoEnsured t name vid minted, none)
  | .ensureFailed name vid now => (topoEnsureFailed t name vid now, none)
  | .tick now => (topoTick t now, none)
  | .releaseAll => (topoReleaseAll t, none)

/-- The table. -/
def topoMachine : Machine Topo TopoInput (Option TopoEvent) := ⟨topoStep⟩

/-- A step of the table. -/
abbrev TopoLogEntry := Event Topo TopoInput (Option TopoEvent)

end Libreac
