import Libreac.Json
import Libreac.Snapshot

/-!
# The discovery snapshot, read back

The token of a box is short and needs no escape, so the pieces that the source puts make up the text of a
JSON array of objects. Every piece is put whole or the serialization is given up, so the text comes out
exactly when it fits with its terminator; a full table always fits. What a reader decodes from the text
(`readSnapshot`) is the table (`DiscoEntry.report`).
-/

namespace Libreac

open Json

/-! ## The name of a box -/

theorem sbStr_cons (b : Sb) (c : Char) (s : List Char) : sbStr b (c :: s) = sbStr (sbCh b c) s := rfl

/-- Nothing else gets into a builder than what is put there. -/
theorem plain_sbStr {b : Sb} {s : List Char} (hb : Plain b.text) (hs : Plain s) : Plain (sbStr b s).text := by
  induction s generalizing b with
  | nil => exact hb
  | cons c s ih =>
    rw [sbStr_cons]
    refine ih ?_ fun d hd => hs d (List.mem_cons_of_mem c hd)
    unfold sbCh
    split
    · exact hb
    · exact hb.append fun d hd => hs d (by rw [List.mem_singleton.mp hd]; exact List.mem_cons_self)

theorem plain_sbDec {b : Sb} (hb : Plain b.text) (v minDigits : ℕ) : Plain (sbDec b v minDigits).text := by
  have hdigits : ∀ k v, ∀ c ∈ sbDigits k v, c.isDigit = true := by
    intro k
    induction k with
    | zero => exact fun v c hc => absurd hc List.not_mem_nil
    | succ k ih =>
      intro v c hc
      rw [sbDigits, List.mem_cons] at hc
      rcases hc with rfl | hc
      · rw [Nat.isDigit_digitChar]
        exact decide_eq_true (Nat.mod_lt v (by omega))
      · split at hc
        · exact absurd hc List.not_mem_nil
        · exact ih (v / 10) c hc
  refine plain_sbStr hb (plain_of_digits ?_)
  intro c hc
  rcases List.mem_append.mp (List.mem_reverse.mp hc) with hc | hc
  · exact hdigits 3 v c hc
  · rw [List.eq_of_mem_replicate hc]
    rfl

theorem plain_widthsText (inCh outCh : ℕ) : Plain (widthsText inCh outCh).text :=
  plain_sbDec (plain_sbDec (fun _ hc => absurd hc List.not_mem_nil) inCh 2) outCh 2

theorem plain_boxFamilyStem (f : UInt8) : Plain (boxFamilyStem f) := by
  unfold boxFamilyStem
  split_ifs <;> exact plain_of_all rfl

theorem plain_nameText {stem : List Char} (h : Plain stem) {w : Sb} (hw : Plain w.text) :
    Plain (nameText stem w).text := by
  have hstem : Plain (sbStr { cap := boxNameMax } stem).text := plain_sbStr (fun _ hc => absurd hc List.not_mem_nil) h
  unfold nameText
  dsimp only
  split
  · exact hstem
  · exact plain_sbStr (plain_sbStr hstem (plain_of_all rfl : Plain ['-'])) hw

theorem plain_tokenText {name : List Char} (h : Plain name) : Plain (tokenText name).text := by
  have hlower : Plain ((List.range 26).map fun k => tokenChar (Char.ofNat (65 + k))) := plain_of_all rfl
  refine plain_sbStr (fun _ hc => absurd hc List.not_mem_nil) ?_
  intro c hc
  obtain ⟨d, hd, rfl⟩ := List.mem_map.mp hc
  by_cases hupper : 'A' ≤ d ∧ d ≤ 'Z'
  · have hlow : 65 ≤ d.toNat := hupper.1
    have hhigh : d.toNat ≤ 90 := hupper.2
    refine hlower _ (List.mem_map.mpr ⟨d.toNat - 65, List.mem_range.mpr (by omega), ?_⟩)
    rw [Nat.add_sub_cancel' hlow, Char.ofNat_toNat]
  · rw [tokenChar, if_neg hupper]
    exact h d (List.mem_of_mem_erase hd)

/-- A name that is not refused fits, and its token needs no escape. -/
theorem reacBoxName_token {f : UInt8} {inCh outCh : ℤ} {nameLen tokenLen displayLen : ℕ} {n : BoxName}
    (h : reacBoxName f none inCh outCh nameLen tokenLen displayLen = some n) :
    Plain n.token ∧ n.token.length < tokenLen := by
  unfold reacBoxName at h
  split at h
  · contradiction
  split at h
  · contradiction
  dsimp only at h
  split at h
  · contradiction
  · rename_i hfits
    obtain rfl := Option.some.inj h
    refine ⟨plain_tokenText (plain_nameText (plain_boxFamilyStem f) (plain_widthsText _ _)), ?_⟩
    simp only [not_or, not_le] at hfits
    exact hfits.2.2.2.2.2.1

/-! ## The text -/

/-- The model of an entry. -/
def DiscoEntry.modelText (e : DiscoEntry) : List Char :=
  match e.named with
  | some (n, _, _) => n.token
  | none => "unknown".toList

/-- The widths of an entry. -/
def DiscoEntry.widthText (e : DiscoEntry) : List Char :=
  match e.named with
  | some (_, declIn, declOut) => Nat.toDigits 10 declIn.toNat ++ 'x' :: Nat.toDigits 10 declOut.toNat
  | none => "0x0".toList

/-- The texts of the fields of an entry. -/
def DiscoEntry.fieldTexts (now : ℕ) (e : DiscoEntry) : List (List Char) :=
  [pair "mac".toList (quoted (macText e.mac)), pair "role".toList (quoted (discoRoleName e.role)),
    pair "model".toList (quoted e.modelText), pair "width".toList (quoted e.widthText),
    pair "owned".toList (if e.owned then "true".toList else "false".toList),
    pair "age_ms".toList (Nat.toDigits 10 (e.ageMs now))]

/-- The whole text of the table. -/
def tableText (t : DiscoTable) (now : ℕ) : List Char :=
  bracketed (t.peers.entries.map fun e => braced (e.fieldTexts now))

/-- What is put for an entry is its object, with a comma in front of it unless it is the first. -/
theorem entryPuts_flatten (now : ℕ) (e : DiscoEntry) (i : ℕ) :
    (entryPuts now e i).flatten = (if i ≠ 0 then [','] else []) ++ braced (e.fieldTexts now) := by
  unfold entryPuts DiscoEntry.fieldTexts DiscoEntry.modelText DiscoEntry.widthText
  cases e.named with
  | none => simp [braced, pair, quoted]
  | some n => simp [braced, pair, quoted]

/-- Behind the first entry every one has its comma. -/
theorem puts_flatten (now : ℕ) (es : List DiscoEntry) (k : ℕ) :
    ((es.zipIdx (k + 1)).flatMap fun (e, i) => entryPuts now e i).flatten =
      es.flatMap fun e => ',' :: braced (e.fieldTexts now) := by
  induction es generalizing k with
  | nil => rfl
  | cons e es ih =>
    rw [List.zipIdx_cons, List.flatMap_cons, List.flatten_append, ih, entryPuts_flatten,
      if_pos (Nat.succ_ne_zero k), List.flatMap_cons]
    rfl

theorem intercalate_eq_flatMap {α : Type} (sep : α) (t : List α) (ts : List (List α)) :
    [sep].intercalate (t :: ts) = t ++ ts.flatMap fun t => sep :: t := by
  induction ts generalizing t with
  | nil => rw [List.intercalate_singleton, List.flatMap_nil, List.append_nil]
  | cons u ts ih =>
    rw [List.intercalate_cons_cons, ih, List.flatMap_cons, List.append_assoc]
    rfl

/-- The pieces of all entries are the items of the array. -/
theorem puts_eq_intercalate (now : ℕ) (es : List DiscoEntry) :
    (es.zipIdx.flatMap fun (e, i) => entryPuts now e i).flatten =
      [','].intercalate (es.map fun e => braced (e.fieldTexts now)) := by
  cases es with
  | nil => rfl
  | cons e es =>
    rw [List.zipIdx_cons, List.flatMap_cons, List.flatten_append, puts_flatten, entryPuts_flatten, List.map_cons,
      intercalate_eq_flatMap, List.flatMap_map]
    rfl

/-- Pieces are put whole as long as the terminator fits behind them. -/
theorem foldlM_jsonPut {cap : ℕ} (ps : List (List Char)) {buf : List Char} (h : buf.length < cap) :
    ps.foldlM (jsonPut cap) buf =
      if (buf ++ ps.flatten).length < cap then some (buf ++ ps.flatten) else none := by
  induction ps generalizing buf with
  | nil => rw [List.flatten_nil, List.append_nil, if_pos h]; rfl
  | cons w ps ih =>
    rw [List.foldlM_cons, List.flatten_cons, ← List.append_assoc]
    by_cases hput : (buf ++ w).length < cap
    · have hroom : ¬ cap - buf.length ≤ w.length := by
        rw [List.length_append] at hput
        omega
      rw [jsonPut, if_neg hroom]
      exact ih hput
    · have hroom : cap - buf.length ≤ w.length := by
        rw [List.length_append] at hput
        omega
      have hover : ¬ (buf ++ w ++ ps.flatten).length < cap := by
        rw [List.length_append]
        omega
      rw [jsonPut, if_pos hroom, if_neg hover]
      rfl

/-- The table is serialized exactly into the buffers that hold its text and the terminator. -/
theorem tableJson_eq (t : DiscoTable) (now cap : ℕ) :
    tableJson t now cap = if (tableText t now).length < cap then some (tableText t now) else none := by
  have hbrackets : (tableText t now).length =
      ([','].intercalate (t.peers.entries.map fun e => braced (e.fieldTexts now))).length + 2 := by
    rw [tableText, bracketed, List.length_cons, List.length_append, List.length_singleton]
  unfold tableJson
  split
  · rw [if_neg (by omega)]
  · rename_i hcap
    have hall := foldlM_jsonPut ("[".toList :: ((t.peers.entries.zipIdx.flatMap fun (e, i) => entryPuts now e i)
      ++ ["]".toList])) (show ([] : List Char).length < cap by rw [List.length_nil]; omega)
    have htext : ("[".toList :: ((t.peers.entries.zipIdx.flatMap fun (e, i) => entryPuts now e i)
        ++ ["]".toList])).flatten = tableText t now := by
      rw [List.flatten_cons, List.flatten_append, puts_eq_intercalate]
      rfl
    rw [htext, List.nil_append, List.foldlM_cons] at hall
    rw [← hall]
    refine congrArg _ (funext fun buf => ?_)
    rw [List.foldlM_append]
    refine congrArg _ (funext fun buf => ?_)
    rw [List.foldlM_cons]
    exact (bind_pure _).symm

/-! ## The text spells the table -/

/-- The bytes of an address are plain text. -/
theorem plain_macText (m : Mac) : Plain (macText m) := by
  have hdigits : Plain ((List.range 16).map Nat.digitChar) := plain_of_all rfl
  have hhex : ∀ n < 16, Plain [Nat.digitChar n] := by
    intro n hn c hc
    rw [List.mem_singleton.mp hc]
    exact hdigits _ (List.mem_map_of_mem (List.mem_range.mpr hn))
  have hbyte : ∀ b : UInt8, Plain (hexByte b) := by
    intro b
    have hb := b.toNat_lt
    exact (hhex (b.toNat / 16) (by omega)).append (hhex (b.toNat % 16) (by omega))
  have hcolon : Plain [':'] := plain_of_all rfl
  have hall : ∀ bs : List UInt8, Plain ([':'].intercalate (bs.map hexByte)) := by
    intro bs
    induction bs with
    | nil => exact fun c hc => absurd hc List.not_mem_nil
    | cons b bs ih =>
      cases bs with
      | nil => exact hbyte b
      | cons b' bs => exact ((hbyte b).append hcolon).append ih
  exact hall m.toList

/-- The value of an entry. -/
def DiscoEntry.json (now : ℕ) (e : DiscoEntry) : Json :=
  .obj [("mac".toList, .str (macText e.mac)), ("role".toList, .str (discoRoleName e.role)),
    ("model".toList, .str e.modelText), ("width".toList, .str e.widthText),
    ("owned".toList, .bool e.owned), ("age_ms".toList, .num (e.ageMs now))]

theorem named_token {e : DiscoEntry} {n : BoxName} {w : UInt8 × UInt8} (h : e.named = some (n, w)) :
    Plain n.token ∧ n.token.length < boxNameTokenMax := by
  unfold DiscoEntry.named at h
  split at h
  · contradiction
  · obtain ⟨n', hn', heq⟩ := Option.map_eq_some_iff.mp h
    obtain ⟨rfl, _⟩ := Prod.mk.inj heq
    exact reacBoxName_token hn'

theorem plain_toDigits (n : ℕ) : Plain (Nat.toDigits 10 n) :=
  plain_of_digits fun _ hc => Nat.isDigit_of_mem_toDigits (by omega) (by omega) hc

theorem plain_roleName (r : DiscoRole) : Plain (discoRoleName r) := by
  cases r <;> exact plain_of_all rfl

theorem plain_modelText (e : DiscoEntry) : Plain e.modelText := by
  unfold DiscoEntry.modelText
  cases hnamed : e.named with
  | none => exact plain_of_all rfl
  | some n => exact (named_token hnamed).1

theorem plain_widthText (e : DiscoEntry) : Plain e.widthText := by
  unfold DiscoEntry.widthText
  cases e.named with
  | none => exact plain_of_all rfl
  | some n => exact (plain_toDigits _).append ((plain_of_all rfl : Plain ['x']).append (plain_toDigits _))

theorem spells_entry (now : ℕ) (e : DiscoEntry) : Spells (braced (e.fieldTexts now)) (e.json now) := by
  refine spells_obj (.cons ⟨plain_of_all rfl, _, rfl, spells_str (plain_macText e.mac)⟩ <|
    .cons ⟨plain_of_all rfl, _, rfl, spells_str (plain_roleName e.role)⟩ <|
    .cons ⟨plain_of_all rfl, _, rfl, spells_str (plain_modelText e)⟩ <|
    .cons ⟨plain_of_all rfl, _, rfl, spells_str (plain_widthText e)⟩ <|
    .cons ⟨plain_of_all rfl, _, rfl, spells_bool e.owned⟩ <|
    .cons ⟨plain_of_all rfl, _, rfl, spells_num (e.ageMs now)⟩ .nil)

theorem parse_tableText (t : DiscoTable) (now : ℕ) :
    parse (tableText t now) = some (.arr (t.peers.entries.map fun e => e.json now)) := by
  refine parse_of_spells (spells_arr ?_)
  rw [List.forall₂_map_left_iff, List.forall₂_map_right_iff, List.forall₂_same]
  exact fun e _ => spells_entry now e

/-! ## The table always fits -/

theorem length_macText (m : Mac) : (macText m).length = 17 := by
  have hlen : ∀ b bs, ([':'].intercalate ((b :: bs).map hexByte)).length = 3 * bs.length + 2 := by
    intro b bs
    induction bs generalizing b with
    | nil => rfl
    | cons b' bs ih =>
      have htail := ih b'
      rw [List.map_cons] at htail ⊢
      rw [List.map_cons, List.intercalate_cons_cons, List.length_append, List.length_append, htail]
      simp only [hexByte, List.length_cons, List.length_nil]
      omega
  obtain ⟨b, bs, hcons⟩ : ∃ b bs, m.toList = b :: bs :=
    List.exists_cons_of_ne_nil (List.ne_nil_of_length_pos (by rw [Vector.length_toList]; omega))
  have hbs : bs.length = 5 := by
    have hsix := m.length_toList
    rw [hcons, List.length_cons] at hsix
    omega
  rw [macText, hcons, hlen, hbs]

theorem length_roleName_le (r : DiscoRole) : (discoRoleName r).length ≤ 7 := by
  cases r <;> exact Nat.le_of_ble_eq_true rfl

theorem length_modelText_le (e : DiscoEntry) : e.modelText.length ≤ 23 := by
  unfold DiscoEntry.modelText
  cases hnamed : e.named with
  | none => exact Nat.le_of_ble_eq_true rfl
  | some n =>
    have hfits : n.1.token.length < 24 := (named_token hnamed).2
    exact Nat.le_of_lt_succ hfits

theorem length_widthText_le (e : DiscoEntry) : e.widthText.length ≤ 7 := by
  have hbyte : ∀ b : UInt8, (Nat.toDigits 10 b.toNat).length ≤ 3 := by
    intro b
    have hb := b.toNat_lt
    exact (Nat.length_toDigits_le_iff (by omega) (by omega)).mpr (by omega)
  unfold DiscoEntry.widthText
  cases e.named with
  | none => exact Nat.le_of_ble_eq_true rfl
  | some n =>
    obtain ⟨n, declIn, declOut⟩ := n
    have hin := hbyte declIn
    have hout := hbyte declOut
    rw [List.length_append, List.length_cons]
    omega

theorem length_ageText_le (e : DiscoEntry) (now : UInt64) : (Nat.toDigits 10 (e.ageMs now.toNat)).length ≤ 14 := by
  have hnow := now.toNat_lt
  refine (Nat.length_toDigits_le_iff (by omega) (by omega)).mpr ?_
  unfold DiscoEntry.ageMs
  split <;> omega

/-- The object of an entry, whatever its role, its model, its widths and its age. -/
theorem length_entryText_le (e : DiscoEntry) (now : UInt64) : (braced (e.fieldTexts now.toNat)).length ≤ 135 := by
  have hmac := length_macText e.mac
  have hrole := length_roleName_le e.role
  have hmodel := length_modelText_le e
  have hwidth := length_widthText_le e
  have hage := length_ageText_le e now
  have howned : (if e.owned then "true".toList else "false".toList).length ≤ 5 := by
    cases e.owned <;> exact Nat.le_of_ble_eq_true rfl
  simp only [braced, DiscoEntry.fieldTexts, pair, quoted, List.intercalate_cons_cons, List.intercalate_singleton,
    List.length_cons, List.length_append, List.length_nil, String.length_toList]
  rw [show "mac".length = 3 from rfl, show "role".length = 4 from rfl, show "model".length = 5 from rfl,
    show "width".length = 5 from rfl, show "owned".length = 5 from rfl, show "age_ms".length = 6 from rfl]
  omega

/-- The text of a full table leaves room in a buffer of the documented size. -/
theorem length_tableText_lt (t : DiscoTable) (now : UInt64) : (tableText t now.toNat).length < discoJsonMax := by
  have hitems : ∀ es : List DiscoEntry,
      ([','].intercalate (es.map fun e => braced (e.fieldTexts now.toNat))).length ≤ 136 * es.length := by
    intro es
    induction es with
    | nil => exact Nat.le_refl 0
    | cons e es ih =>
      have hentry := length_entryText_le e now
      cases es with
      | nil =>
        rw [List.map_singleton, List.intercalate_singleton, List.length_singleton]
        omega
      | cons e' es =>
        rw [List.map_cons] at ih
        rw [List.map_cons, List.map_cons, List.intercalate_cons_cons, List.length_append, List.length_append,
          List.length_singleton, List.length_cons (a := e)]
        omega
  have hall := hitems t.peers.entries
  have hfits : t.peers.entries.length ≤ 8 := t.peers.fits
  rw [tableText, bracketed, List.length_cons, List.length_append, List.length_singleton]
  unfold discoJsonMax
  omega

/-! ## What a reader gets back -/

/-- A device as a reader of the snapshot sees it. -/
structure DiscoReport where
  mac : Mac
  role : List Char
  model : List Char
  widths : ℕ × ℕ
  owned : Bool
  ageMs : ℕ

/-- What the table knows of a device: its declared widths when they name a box, otherwise none. -/
def DiscoEntry.report (now : ℕ) (e : DiscoEntry) : DiscoReport :=
  { mac := e.mac, role := discoRoleName e.role, model := e.modelText
    widths := match e.named with
      | some (_, declIn, declOut) => (declIn.toNat, declOut.toNat)
      | none => (0, 0)
    owned := e.owned, ageMs := e.ageMs now }

/-- The value of a hexadecimal digit. -/
def readHexDigit (c : Char) : Option ℕ :=
  if c.isDigit then some (c.toNat - 48) else if 'a' ≤ c ∧ c ≤ 'f' then some (c.toNat - 87) else none

/-- The byte that two hexadecimal digits write. -/
def readHexByte (a b : Char) : Option UInt8 := do
  let high ← readHexDigit a
  let low ← readHexDigit b
  return (16 * high + low).toUInt8

/-- Bytes with colons between them. -/
def readHexBytes : List Char → Option (List UInt8)
  | a :: b :: ':' :: cs => do
    let byte ← readHexByte a b
    let bytes ← readHexBytes cs
    return byte :: bytes
  | [a, b] => do
    let byte ← readHexByte a b
    return [byte]
  | _ => none

/-- An address. -/
def readMac (cs : List Char) : Option Mac := do
  let bytes ← readHexBytes cs
  if h : bytes.length = 6 then some ⟨bytes.toArray, h⟩ else none

/-- Two numbers with an `x` between them. -/
def readWidths (cs : List Char) : Option (ℕ × ℕ) := do
  let (declIn, cs) ← number cs
  let 'x' :: cs := cs | none
  let (declOut, cs) ← number cs
  if cs = [] then some (declIn, declOut) else none

/-- A device. -/
def readReport (j : Json) : Option DiscoReport := do
  let mac ← field "mac".toList j >>= str? >>= readMac
  let role ← field "role".toList j >>= str?
  let model ← field "model".toList j >>= str?
  let widths ← field "width".toList j >>= str? >>= readWidths
  let owned ← field "owned".toList j >>= bool?
  let ageMs ← field "age_ms".toList j >>= num?
  return { mac, role, model, widths, owned, ageMs }

/-- The devices of a snapshot, in its order. -/
def readSnapshot (text : List Char) : Option (List DiscoReport) := do
  let items ← parse text >>= items?
  items.mapM readReport

theorem readHexByte_digits (b : UInt8) :
    readHexByte (Nat.digitChar (b.toNat / 16)) (Nat.digitChar (b.toNat % 16)) = some b := by
  have hdigit : ∀ n < 16, readHexDigit (Nat.digitChar n) = some n := by decide
  have hb := b.toNat_lt
  rw [readHexByte, hdigit _ (by omega), hdigit _ (by omega)]
  show some (16 * (b.toNat / 16) + b.toNat % 16).toUInt8 = some b
  rw [Nat.div_add_mod]
  exact congrArg some (UInt8.ofNat_toNat)

theorem readHexBytes_intercalate (b : UInt8) (bs : List UInt8) :
    readHexBytes ([':'].intercalate ((b :: bs).map hexByte)) = some (b :: bs) := by
  induction bs generalizing b with
  | nil =>
    show (readHexByte _ _).bind _ = _
    rw [readHexByte_digits]
    rfl
  | cons b' bs ih =>
    have htail := ih b'
    rw [List.map_cons] at htail ⊢
    rw [List.map_cons, List.intercalate_cons_cons]
    show (readHexByte _ _).bind _ = _
    rw [readHexByte_digits]
    show (readHexBytes ([':'].intercalate (hexByte b' :: bs.map hexByte))).bind _ = _
    rw [htail]
    rfl

theorem readMac_macText (m : Mac) : readMac (macText m) = some m := by
  obtain ⟨b, bs, hcons⟩ : ∃ b bs, m.toList = b :: bs :=
    List.exists_cons_of_ne_nil (List.ne_nil_of_length_pos (by rw [Vector.length_toList]; omega))
  have hsix : (b :: bs).length = 6 := by
    rw [← hcons, Vector.length_toList]
  rw [readMac, macText, hcons, readHexBytes_intercalate]
  show (if h : (b :: bs).length = 6 then _ else none) = _
  rw [dif_pos hsix]
  refine congrArg some (Vector.toList_inj.mp ?_)
  rw [hcons]
  rfl

theorem readWidths_widthText (now : ℕ) (e : DiscoEntry) : readWidths e.widthText = some (e.report now).widths := by
  unfold DiscoEntry.widthText DiscoEntry.report
  cases e.named with
  | none => rfl
  | some n =>
    obtain ⟨n, declIn, declOut⟩ := n
    have hin := number_toDigits declIn.toNat (ends_cons (rfl : Char.isDigit 'x' = false) (Nat.toDigits 10 declOut.toNat))
    have hout := number_toDigits declOut.toNat (fun c hc => absurd hc (Option.not_mem_none c) : Ends [])
    rw [List.append_nil] at hout
    dsimp only
    rw [readWidths, hin]
    show (number _).bind _ = _
    rw [hout]
    rfl

theorem readReport_json (now : ℕ) (e : DiscoEntry) : readReport (e.json now) = some (e.report now) := by
  show (readMac (macText e.mac)).bind _ = _
  rw [readMac_macText]
  show (readWidths e.widthText).bind _ = _
  rw [readWidths_widthText now]
  rfl

theorem readSnapshot_tableText (t : DiscoTable) (now : ℕ) :
    readSnapshot (tableText t now) = some (t.peers.entries.map fun e => e.report now) := by
  have hitems : ∀ es : List DiscoEntry,
      (es.map fun e => e.json now).mapM readReport = some (es.map fun e => e.report now) := by
    intro es
    induction es with
    | nil => rfl
    | cons e es ih =>
      rw [List.map_cons, List.mapM_cons, readReport_json, ih]
      rfl
  rw [readSnapshot, parse_tableText]
  exact hitems t.peers.entries

/-- The table is published whole or not at all, and what is published is the table. -/
theorem snapshot_faithful (t : DiscoTable) (now : UInt64) :
    ∃ text, tableJson t now.toNat discoJsonMax = some text ∧
      readSnapshot text = some (t.peers.entries.map fun e => e.report now.toNat) ∧
      ∀ cap, tableJson t now.toNat cap = if text.length < cap then some text else none := by
  refine ⟨tableText t now.toNat, ?_, readSnapshot_tableText t now.toNat, tableJson_eq t now.toNat⟩
  rw [tableJson_eq, if_pos (length_tableText_lt t now)]

end Libreac
