import Libreac.Ctrl
import Libreac.Topo

/-!
# The tag classifier

`reac_topo_classify` of `reac_topo.c`: which VLAN a frame arrived on, whether the kernel stripped the
outer tag into metadata or left it in the bytes. A buffer is its `len` bytes, and a read at or past
them is no value.
-/

namespace Libreac

/-- `REAC_ETHERTYPE`. -/
def reacEthertype : UInt16 := 0x8819

/-- `VLAN_CTAG` and `VLAN_STAG`. -/
def vlanCtag : UInt16 := 0x8100
def vlanStag : UInt16 := 0x88a8

/-- The type word of a VLAN tag. -/
def isVlanTag (et : UInt16) : Bool := et = vlanCtag ∨ et = vlanStag

/-- The VID of a tag control word. -/
def tciVid (tci : UInt16) : UInt16 := tci &&& 0x0fff

/-- `be16at`; `none` is a read past the buffer. -/
def be16At (b : List UInt8) (off : ℕ) : Option UInt16 := do
  let hi ← b[off]?
  let lo ← b[off + 1]?
  pure (u16be hi lo)

/-- The tag loop of `reac_topo_classify`, at most `depth` tags deep: where the type of the frame is,
and the VID of its first tag that has one. The inner `none` is the return on a tag cut short. -/
def tagLoop (b : List UInt8) : ℕ → UInt16 → ℕ → Option (Option (UInt16 × ℕ))
  | 0, vid, off => some (some (vid, off))
  | depth + 1, vid, off => do
    let et ← be16At b off
    if !isVlanTag et then pure (some (vid, off))
    else if b.length < off + 4 + 2 then pure none
    else if vid = 0 then
      let tci ← be16At b (off + 2)
      tagLoop b depth (tciVid tci) (off + 4)
    else tagLoop b depth vid (off + 4)

/-- The VID the kernel's own answer names; VID 0 is a priority tag and names none. -/
def kernelVid (tciValid : Bool) (tci : UInt16) : UInt16 := if tciValid then tciVid tci else 0

/-- The kind of a frame of type `et`, with the VID written to `vid_out`. -/
def topoVerdict (et vid : UInt16) : TopoKind × UInt16 :=
  if et ≠ reacEthertype then (if vid ≠ 0 then .taggedOther else .notReac, vid)
  else (if vid ≠ 0 then .tagged else .untagged, vid)

/-- The end of `reac_topo_classify`, behind the tag loop. -/
def topoBehindTags (b : List UInt8) : Option (UInt16 × ℕ) → Option (TopoKind × UInt16)
  | none => some (.notReac, 0)
  | some (vid, off) => (be16At b off).map fun et => topoVerdict et vid

/-- `reac_topo_classify`; the buffer `none` is `NULL`. -/
def topoClassify (buf : Option (List UInt8)) (tciValid : Bool) (tci : UInt16) :
    Option (TopoKind × UInt16) :=
  match buf with
  | none => some (.notReac, 0)
  | some b =>
    if b.length < 14 then some (.notReac, 0)
    else (tagLoop b 2 (kernelVid tciValid tci) 12).bind (topoBehindTags b)

/-! ## The tags of a frame -/

/-- The VIDs of the tags in front of the frame's type, the outermost first. -/
def tagVids : List UInt8 → List UInt16
  | hi :: lo :: hi' :: lo' :: rest =>
    if isVlanTag (u16be hi lo) then tciVid (u16be hi' lo') :: tagVids rest else []
  | _ => []

/-- The VIDs of all tags of a frame, the accelerated one outermost. -/
def frameVids (b : List UInt8) (tciValid : Bool) (tci : UInt16) : List UInt16 :=
  (if tciValid then [tciVid tci] else []) ++ tagVids (b.drop 12)

/-- The bytes carry at most one tag: behind a tag at offset 12 there is no other. -/
def OneTag (b : List UInt8) : Prop :=
  ∀ et ∈ be16At b 12, ∀ inner ∈ be16At b 16, isVlanTag et → ¬ isVlanTag inner

/-- The frame with the tag `0x8100, tci` in its bytes. -/
def insertTag (b : List UInt8) (tci : UInt16) : List UInt8 :=
  b.take 12 ++ ([0x81, 0x00, (tci >>> 8).toUInt8, tci.toUInt8] : List UInt8) ++ b.drop 12

end Libreac
