import Libreac.BoxSynth
import Libreac.Machine

/-!
# The registry of boxes

`reac_boxreg.c`: up to five boxes on one segment, each with a slice of the audio fabric. A box is
declared before it joins, with a base of its own or without one, or it is added when it joins; a row
whose MAC is zero waits for a box of its width. The integers are unbounded here: the source adds two of
them only where both are within the fabric.
-/

namespace Libreac

open Reactive (Machine)

/-- `REAC_BOXREG_MAX_BOXES`. -/
def boxregMaxBoxes : ℕ := 5

/-- `REAC_BOXREG_FABRIC`. -/
def boxregFabric : ℤ := 40

/-- `REAC_BOXREG_NAME_MAX`. -/
def boxregNameMax : ℕ := 32

/-- `struct reac_box`. -/
structure Box where
  mac : Mac := noMac
  base : ℤ
  nch : ℤ
  established : Bool := false
  pinned : Bool := false
  name : List UInt8 := []

/-- `struct reac_boxreg`; `n` is the length of the list. -/
structure BoxReg where
  boxes : List Box := []
  fabric : ℤ

/-- `reac_boxreg_init`. -/
def boxregInit (fabric : ℤ) : BoxReg :=
  { fabric := if 0 < fabric ∧ fabric ≤ boxregFabric then fabric else boxregFabric }

/-- `reac_boxreg_find`: the zero MAC is no box's. -/
def boxregFind (r : BoxReg) (mac : Mac) : Option ℕ :=
  if mac = noMac then none else r.boxes.findIdx? fun b => b.mac = mac

/-- `range_taken`. -/
def rangeTaken (r : BoxReg) (base nch : ℤ) : Bool :=
  r.boxes.any fun b => base < b.base + b.nch ∧ b.base < base + nch

/-- `lowest_free_base`: the bases from 0 on whose range ends within the fabric. -/
def lowestFreeBase (r : BoxReg) (nch : ℤ) : Option ℕ :=
  (List.range (r.fabric - nch + 1).toNat).find? fun base => !rangeTaken r base nch

/-- `width_ok`. -/
def widthOk (r : BoxReg) (nch : ℤ) : Bool := boxWidthOk nch ∧ nch ≤ r.fabric

/-- What `snprintf` leaves in the name of a row. -/
def boxName (name : Option CString) : List UInt8 := (name.elim [] CString.bytes).take (boxregNameMax - 1)

/-- The answer of a call: an index, -1, or nothing. -/
inductive BoxAnswer where
  | index (idx : ℕ)
  | refused
  | done
  deriving DecidableEq

/-- The next row of the table. -/
def BoxReg.push (r : BoxReg) (b : Box) : BoxReg × BoxAnswer :=
  ({ r with boxes := r.boxes ++ [b] }, .index r.boxes.length)

/-- `reac_boxreg_declare`. -/
def boxregDeclare (r : BoxReg) (nch : ℤ) (name : Option CString) (base : ℤ) :
    BoxReg × BoxAnswer :=
  if widthOk r nch = false ∨ boxregMaxBoxes ≤ r.boxes.length then (r, .refused)
  else if 0 ≤ base then
    if r.fabric - nch < base ∨ rangeTaken r base nch = true then (r, .refused)
    else r.push { base := base, nch := nch, pinned := true, name := boxName name }
  else
    match lowestFreeBase r nch with
    | none => (r, .refused)
    | some base => r.push { base := base, nch := nch, name := boxName name }

/-- A declared row that no box has taken yet, of the width `nch`. -/
def Box.waitsFor (b : Box) (nch : ℤ) : Bool := b.mac = noMac ∧ b.nch = nch

/-- `reac_boxreg_add`. -/
def boxregAdd (r : BoxReg) (mac : Mac) (nch : ℤ) : BoxReg × BoxAnswer :=
  if widthOk r nch = false then (r, .refused)
  else if mac = noMac then (r, .refused)
  else
    match boxregFind r mac with
    | some idx => (r, .index idx)
    | none =>
      match r.boxes.findIdx? fun b => b.waitsFor nch with
      | some i => ({ r with boxes := r.boxes.modify i fun b => { b with mac := mac } }, .index i)
      | none =>
        if boxregMaxBoxes ≤ r.boxes.length then (r, .refused)
        else
          match lowestFreeBase r nch with
          | none => (r, .refused)
          | some base => r.push { mac := mac, base := base, nch := nch }

/-- `reac_boxreg_set_name`. -/
def boxregSetName (r : BoxReg) (idx : ℤ) (name : Option CString) : BoxReg :=
  if idx < 0 ∨ (r.boxes.length : ℤ) ≤ idx then r
  else { r with boxes := r.boxes.modify idx.toNat fun b => { b with name := boxName name } }

/-! ## Calls -/

/-- The calls of the registry. -/
inductive BoxCall where
  | declare (nch : ℤ) (name : Option CString) (base : ℤ)
  | add (mac : Mac) (nch : ℤ)
  | setName (idx : ℤ) (name : Option CString)

/-- One call. -/
def boxregCall (r : BoxReg) : BoxCall → BoxReg × BoxAnswer
  | .declare nch name base => boxregDeclare r nch name base
  | .add mac nch => boxregAdd r mac nch
  | .setName idx name => (boxregSetName r idx name, .done)

/-- The registry under its calls. -/
def boxMachine : Machine BoxReg BoxCall BoxAnswer := ⟨boxregCall⟩

@[simp] theorem boxMachine_step (r : BoxReg) (c : BoxCall) : boxMachine.step r c = boxregCall r c := rfl

end Libreac
