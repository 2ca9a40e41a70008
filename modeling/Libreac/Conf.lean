import Libreac.Lines
import Mathlib.Data.List.DropRight

/-!
# The layered configuration

`reac_conf.c`: one key out of one file, and the lookup through the environment and the two files of a home.
A C string is the list of its bytes, without the NUL. The environment and the files are functions of the
name; a file that cannot be opened has nothing to say. What is read of a file comes from `fgets`, so that a
line may come in pieces.
-/

namespace Libreac

/-- The bytes of a string constant. -/
def strBytes (s : String) : List UInt8 := s.toList.map fun c => c.toNat.toUInt8

/-- The newline. -/
def newline : UInt8 := 10

/-- `enum reac_conf_layer`. -/
inductive ConfLayer where
  | none | argv | env | segment | host | lastResort | builtin
  deriving DecidableEq

/-- The process environment and the files that there are. -/
structure ConfHost where
  getenv : List UInt8 → Option (List UInt8)
  file : List UInt8 → Option (List UInt8)

/-! ## One key out of one file -/

/-- A blank in front. -/
def isBlank (c : UInt8) : Bool := c = 32 ∨ c = 9

/-- A blank behind, where the end of the line is one too. -/
def isBlankEnd (c : UInt8) : Bool := c = 32 ∨ c = 9 ∨ c = 10 ∨ c = 13

/-- `trim`. -/
def confTrim (s : List UInt8) : List UInt8 := (s.dropWhile isBlank).rdropWhile isBlankEnd

/-- One matching pair of surrounding quotes is stripped. -/
def confUnquote (v : List UInt8) : List UInt8 :=
  if 2 ≤ v.length ∧ ((v.head? = some 0x22 ∧ v.getLast? = some 0x22) ∨
      (v.head? = some 0x27 ∧ v.getLast? = some 0x27)) then v.tail.dropLast
  else v

/-- What a line assigns to the key, if it does: the body of the loop of `reac_conf_read_file`, up to the
value. A NUL ends the line. -/
def confAssigned (key line : List UInt8) : Option (List UInt8) :=
  let p := confTrim (line.takeWhile (· ≠ 0))
  if p.head? = some 0x23 ∨ p = [] then none
  else
    let p := if (strBytes "export ").isPrefixOf p then confTrim (p.drop 7) else p
    if key.isPrefixOf p = false then none
    else
      let eq := confTrim (p.drop key.length)
      if eq.head? ≠ some 0x3d then none
      else some (confUnquote (confTrim eq.tail))

/-- The loop: whether there was a hit, and what is in the buffer. A blank value is passed over. -/
def confScanLine (key : List UInt8) (cap : ℕ) (s : Bool × List UInt8) (line : List UInt8) : Bool × List UInt8 :=
  match confAssigned key line with
  | none => s
  | some v => if v = [] then s else (true, v.take (cap - 1))

/-- `sizeof line`, the terminator taken off. -/
def confLineRoom : ℕ := 1023

/-- `reac_conf_read_file`, with what it leaves in the buffer. -/
def confReadFile (w : ConfHost) (path key : List UInt8) (cap : ℕ) (out : List UInt8) : Bool × List UInt8 :=
  if cap = 0 then (false, out)
  else
    match w.file path with
    | none => (false, out)
    | some text => (Lines.pieces newline confLineRoom text).foldl (confScanLine key cap) (false, out)

/-! ## The lookup -/

/-- `snprintf` of these bytes into a buffer of this size. -/
def snprintfBytes (size : ℕ) (s : List UInt8) : List UInt8 := s.take (size - 1)

/-- The two files of a home. -/
def hostPath : List UInt8 := strBytes "/.config/reac-pw/reac-pw.env"
def lastResortPath : List UInt8 := strBytes "/.config/openmixer/reac.env"

/-- `lookup_bare`. -/
def lookupBare (w : ConfHost) (key home : List UInt8) (cap : ℕ) (out : List UInt8) : ConfLayer × List UInt8 :=
  match (w.getenv key).filter (· ≠ []) with
  | some e => (.env, snprintfBytes cap e)
  | none =>
    let (hit, out) := confReadFile w (snprintfBytes 1024 (home ++ hostPath)) key cap out
    if hit then (.host, out)
    else
      let (hit, out) := confReadFile w (snprintfBytes 1024 (home ++ lastResortPath)) key cap out
      if hit then (.lastResort, out) else (.none, out)

/-- The key with the name of the segment behind it. -/
def suffixedKey (key segment : List UInt8) : List UInt8 := key ++ strBytes "_" ++ segment

/-- `seg_key`. -/
def segKey (key segment : List UInt8) : List UInt8 := snprintfBytes 256 (suffixedKey key segment)

/-- The home that is looked in: the one given, or else that of the environment; none where it is empty. -/
def confHome (w : ConfHost) (home : Option (List UInt8)) : Option (List UInt8) :=
  (home.or (w.getenv (strBytes "HOME"))).filter (· ≠ [])

/-- The branch without a home. -/
def lookupEnv (w : ConfHost) (key : List UInt8) (segment : Option (List UInt8)) (cap : ℕ) (out : List UInt8) :
    ConfLayer × List UInt8 :=
  match (segment.filter (· ≠ [])).bind fun s => (w.getenv (segKey key s)).filter (· ≠ []) with
  | some e => (.segment, snprintfBytes cap e)
  | none =>
    match (w.getenv key).filter (· ≠ []) with
    | some e => (.env, snprintfBytes cap e)
    | none => (.none, out)

/-- `reac_conf_lookup`, with what it leaves in the buffer. -/
def confLookup (w : ConfHost) (key : List UInt8) (segment home : Option (List UInt8)) (cap : ℕ)
    (out : List UInt8) : ConfLayer × List UInt8 :=
  if cap = 0 then (.none, out)
  else
    match confHome w home with
    | none => lookupEnv w key segment cap out
    | some home =>
      match segment.filter (· ≠ []) with
      | some s =>
        let (layer, seg) := lookupBare w (segKey key s) home cap out
        if layer ≠ .none then (.segment, seg) else lookupBare w key home cap seg
      | none => lookupBare w key home cap out

end Libreac
