import Libreac.BoxSynth
import Libreac.Disco

/-!
# The discovery snapshot

The name of a box from its family and its declared widths (`reac_box_facts.c`), which the source writes
without stdio through a bounded builder, and the JSON text of the discovery table
(`reac_disco_table_json`). Texts are lists of characters without their terminator. What the source
refuses with -1 is `none`; otherwise it returns the length of the text.
-/

namespace Libreac

/-! ## The name of a box -/

/-- `REAC_BOX_NAME_MAX`. -/
def boxNameMax : ℕ := 24

/-- `REAC_BOX_NAME_TOKEN_MAX`. -/
def boxNameTokenMax : ℕ := 24

/-- `REAC_BOX_NAME_DISPLAY_MAX`. -/
def boxNameDisplayMax : ℕ := 48

/-- `struct sb`: the builder holds the room of its buffer, the text so far, and whether a character was
dropped. -/
structure Sb where
  cap : ℕ
  text : List Char := []
  isOver : Bool := false

/-- `sb_ch`: a place is kept for the terminator. -/
def sbCh (b : Sb) (c : Char) : Sb :=
  if b.cap ≤ b.text.length + 1 then { b with isOver := true } else { b with text := b.text ++ [c] }

/-- `sb_str`. -/
def sbStr (b : Sb) (s : List Char) : Sb := s.foldl sbCh b

/-- The digits of `sb_dec`, lowest first; the first argument is the room left for them. -/
def sbDigits : ℕ → ℕ → List Char
  | 0, _ => []
  | k + 1, v => Nat.digitChar (v % 10) :: if v / 10 = 0 then [] else sbDigits k (v / 10)

/-- `sb_dec`: at most three digits, and zeros in front of them. -/
def sbDec (b : Sb) (v minDigits : ℕ) : Sb :=
  let d := sbDigits 3 v
  sbStr b (d ++ List.replicate (min minDigits 3 - d.length) '0').reverse

/-- `reac_box_family_stem`. -/
def boxFamilyStem (f : UInt8) : List Char :=
  if f = 1 then "S-0808".toList
  else if f = 2 then "S-1608".toList
  else if f = 3 then "S-4000S".toList
  else "REAC".toList

/-- `ends_with_widths`. -/
def endsWithWidths (stem w4 : List Char) : Bool := 4 ≤ stem.length ∧ stem.drop (stem.length - 4) = w4.take 4

/-- What `reac_box_name` writes. -/
structure BoxName where
  name : List Char
  token : List Char
  display : List Char

/-- The widths in two digits each. -/
def widthsText (inCh outCh : ℕ) : Sb := sbDec (sbDec { cap := 5 } inCh 2) outCh 2

/-- The stem, and the widths unless it already ends in them. -/
def nameText (stem : List Char) (w : Sb) : Sb :=
  let b := sbStr { cap := boxNameMax } stem
  if w.text.length = 4 ∧ endsWithWidths stem w.text then b else sbStr (sbCh b '-') w.text

/-- A character of the token. -/
def tokenChar (c : Char) : Char := if 'A' ≤ c ∧ c ≤ 'Z' then Char.ofNat (c.toNat - 'A'.toNat + 'a'.toNat) else c

/-- The name without its first hyphen, in lower case. -/
def tokenText (name : List Char) : Sb := sbStr { cap := boxNameTokenMax } ((name.erase '-').map tokenChar)

/-- The name and the widths behind it. -/
def displayText (name : List Char) (inCh outCh : ℕ) : Sb :=
  let b := sbStr (sbStr { cap := boxNameDisplayMax } name) " (".toList
  let b := sbStr (sbDec b inCh 1) " in / ".toList
  sbStr (sbDec b outCh 1) " out)".toList

/-- `reac_box_name` for buffers of these lengths. Behind the check no width is negative. -/
def reacBoxName (f : UInt8) (saidName : Option (List Char)) (inCh outCh : ℤ)
    (nameLen tokenLen displayLen : ℕ) : Option BoxName :=
  if nameLen = 0 ∨ tokenLen = 0 ∨ displayLen = 0 then none
  else if (inCh ≠ 0 ∧ !boxWidthOk inCh) ∨ (outCh ≠ 0 ∧ !boxWidthOk outCh) ∨ (inCh = 0 ∧ outCh = 0) then none
  else
    let stem := match saidName with
      | some (c :: cs) => c :: cs
      | _ => boxFamilyStem f
    let wb := widthsText inCh.toNat outCh.toNat
    let nb := nameText stem wb
    let tb := tokenText nb.text
    let db := displayText nb.text inCh.toNat outCh.toNat
    if wb.isOver ∨ nb.isOver ∨ tb.isOver ∨ db.isOver ∨ nameLen ≤ nb.text.length ∨ tokenLen ≤ tb.text.length ∨
        displayLen ≤ db.text.length then none
    else some ⟨nb.text, tb.text, db.text⟩

/-! ## The text of the table -/

/-- `REAC_DISCO_JSON_MAX`. -/
def discoJsonMax : ℕ := 1280

/-- `reac_disco_role_name`. -/
def discoRoleName : DiscoRole → List Char
  | .box => "box".toList
  | .master => "master".toList
  | .unknown => "unknown".toList

/-- `%02x` of a byte. -/
def hexByte (b : UInt8) : List Char := [Nat.digitChar (b.toNat / 16), Nat.digitChar (b.toNat % 16)]

/-- The bytes of an address with colons between them. -/
def macText (m : Mac) : List Char := [':'].intercalate (m.toList.map hexByte)

/-- The name and the widths of an entry that has declared some which name a box. -/
def DiscoEntry.named (e : DiscoEntry) : Option (BoxName × UInt8 × UInt8) :=
  match e.decl with
  | none => none
  | some (declIn, declOut) =>
    (reacBoxName e.family none declIn.toNat declOut.toNat boxNameMax boxNameTokenMax boxNameDisplayMax).map
      fun n => (n, declIn, declOut)

/-- The whole milliseconds from the last sighting of the entry to `now`. -/
def DiscoEntry.ageMs (e : DiscoEntry) (now : ℕ) : ℕ :=
  (if e.lastSeen < now then now - e.lastSeen else 0) / 1000000

/-- What `reac_disco_table_json` puts for entry `i`, one text for each `PUT`. -/
def entryPuts (now : ℕ) (e : DiscoEntry) (i : ℕ) : List (List Char) :=
  [(if i ≠ 0 then ",".toList else []) ++ "\x7b\"mac\":\"".toList ++ macText e.mac ++ "\"".toList,
    ",\"role\":\"".toList ++ discoRoleName e.role ++ "\"".toList] ++
  (match e.named with
    | some (n, declIn, declOut) =>
      [",\"model\":\"".toList ++ n.token ++ "\"".toList,
        ",\"width\":\"".toList ++ Nat.toDigits 10 declIn.toNat ++ "x".toList ++ Nat.toDigits 10 declOut.toNat ++
          "\"".toList]
    | none => [",\"model\":\"unknown\"".toList, ",\"width\":\"0x0\"".toList]) ++
  [",\"owned\":".toList ++ (if e.owned then "true".toList else "false".toList),
    ",\"age_ms\":".toList ++ Nat.toDigits 10 (e.ageMs now) ++ "\x7d".toList]

/-- `PUT`: `snprintf` behind the text so far, given up unless the whole text and its terminator fit. -/
def jsonPut (cap : ℕ) (buf w : List Char) : Option (List Char) :=
  if cap - buf.length ≤ w.length then none else some (buf ++ w)

/-- `reac_disco_table_json`. -/
def tableJson (t : DiscoTable) (now cap : ℕ) : Option (List Char) :=
  if cap < 3 then none
  else do
    let buf ← jsonPut cap [] "[".toList
    let buf ← (t.peers.entries.zipIdx.flatMap fun (e, i) => entryPuts now e i).foldlM (jsonPut cap) buf
    jsonPut cap buf "]".toList

end Libreac
