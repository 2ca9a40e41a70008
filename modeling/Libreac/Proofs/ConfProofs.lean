import Libreac.Conf

/-!
# Proofs: the layered configuration

What a file says is the last assignment of the key in it, if that is not blank (`inForce`); a lookup answers
the first layer that says something (`documentedLayers`). The scan of a file agrees when every line fits in
the buffer and no blank assignment turns off an earlier one. The lookup agrees where the key with its suffix
and the paths of the home fit in their buffers, and each of these bounds is needed.
-/

namespace Libreac

open Lines (lines pieces pieces_eq_lines_iff)

/-! ## What a file says -/

/-- The values assigned to the key, in the order of the lines. -/
def assignmentsOf (key text : List UInt8) : List (List UInt8) :=
  (lines newline text).filterMap (confAssigned key)

/-- What they leave in force. -/
def inForce (key text : List UInt8) : Option (List UInt8) := (assignmentsOf key text).getLast?.filter (· ≠ [])

/-- What a reader of a file is to answer. -/
def fileAnswer (value : Option (List UInt8)) (out : List UInt8) : Bool × List UInt8 :=
  match value with
  | some v => (true, v)
  | none => (false, out)

/-- Every line fits in the buffer. -/
def LinesFit (text : List UInt8) : Prop := ∀ l ∈ lines newline text, l.length ≤ confLineRoom

/-- No blank assignment turns off an earlier one. -/
def NeverBlanked (key text : List UInt8) : Prop :=
  (assignmentsOf key text).getLast? = some [] → ∀ v ∈ assignmentsOf key text, v = []

/-- The values are shorter than the output buffer. -/
def ValuesFit (key : List UInt8) (cap : ℕ) (text : List UInt8) : Prop := ∀ v ∈ assignmentsOf key text, v.length < cap

/-- The scan is left with the last value that is not blank. -/
theorem foldl_confScanLine (key : List UInt8) (cap : ℕ) (ls : List (List UInt8)) (s : Bool × List UInt8) :
    ls.foldl (confScanLine key cap) s =
      ((ls.filterMap (confAssigned key)).filter (· ≠ [])).getLast?.elim s fun v => (true, v.take (cap - 1)) := by
  induction ls generalizing s with
  | nil => rfl
  | cons l ls ih =>
    rw [List.foldl_cons, ih, confScanLine]
    cases hassigned : confAssigned key l with
    | none => rw [List.filterMap_cons_none hassigned]
    | some v =>
      rw [List.filterMap_cons_some hassigned, List.filter_cons]
      dsimp only
      by_cases hblank : v = []
      · rw [if_pos hblank, if_neg (by rw [decide_eq_true_eq]; exact not_not.mpr hblank)]
      · rw [if_neg hblank, if_pos (by rw [decide_eq_true_eq]; exact hblank), List.getLast?_cons]
        cases List.getLast? _ <;> rfl

/-- The last value that is not blank is in force unless a blank one has turned it off. -/
theorem getLast_filter_iff (as : List (List UInt8)) :
    (as.filter (· ≠ [])).getLast? = as.getLast?.filter (· ≠ []) ↔ (as.getLast? = some [] → ∀ v ∈ as, v = []) := by
  rcases List.eq_nil_or_concat as with rfl | ⟨init, v, rfl⟩
  · exact ⟨fun _ h => absurd h.symm (Option.some_ne_none _), fun _ => rfl⟩
  · rw [List.concat_eq_append, List.getLast?_concat, List.filter_append]
    by_cases hblank : v = []
    · subst hblank
      have hnone : (some ([] : List UInt8)).filter (· ≠ []) = none := rfl
      rw [hnone, List.filter_cons_of_neg (by decide), List.filter_nil, List.append_nil]
      constructor
      · intro h _ u hu
        have hinit := List.filter_eq_nil_iff.mp (List.getLast?_eq_none_iff.mp h)
        rcases List.mem_append.mp hu with hu | hu
        · have hu := hinit u hu
          rwa [decide_eq_true_eq, not_not] at hu
        · exact List.mem_singleton.mp hu
      · intro h
        rw [List.getLast?_eq_none_iff, List.filter_eq_nil_iff]
        intro u hu
        rw [decide_eq_true_eq, not_not]
        exact h rfl u (List.mem_append_left _ hu)
    · have hkept : List.filter (fun v : List UInt8 => decide (v ≠ [])) [v] = [v] :=
        List.filter_cons_of_pos (decide_eq_true hblank)
      have hsome : (some v).filter (fun v => decide (v ≠ [])) = some v := if_pos (decide_eq_true hblank)
      rw [hkept, List.getLast?_concat, hsome]
      exact ⟨fun _ h => absurd (Option.some.inj h) hblank, fun _ => rfl⟩

theorem fileAnswer_inj {a b : Option (List UInt8)} {out : List UInt8} :
    fileAnswer a out = fileAnswer b out ↔ a = b := by
  constructor
  · intro h
    cases a with
    | none =>
      cases b with
      | none => rfl
      | some v => exact absurd (Prod.mk.inj h).1 Bool.false_ne_true
    | some u =>
      cases b with
      | none => exact absurd (Prod.mk.inj h).1.symm Bool.false_ne_true
      | some v => exact congrArg some (Prod.mk.inj h).2
  · exact fun h => h ▸ rfl

/-- The scan of the lines of a file. -/
theorem foldl_lines_eq {key text : List UInt8} {cap : ℕ} (hfit : ValuesFit key cap text) (out : List UInt8) :
    (lines newline text).foldl (confScanLine key cap) (false, out) =
      fileAnswer ((assignmentsOf key text).filter (· ≠ [])).getLast? out := by
  rw [foldl_confScanLine, ← assignmentsOf]
  cases hlast : ((assignmentsOf key text).filter (· ≠ [])).getLast? with
  | none => rfl
  | some v =>
    have hmem := (List.mem_filter.mp (List.mem_of_getLast? hlast)).1
    have hlen := hfit v hmem
    rw [Option.elim_some, List.take_of_length_le (by omega)]
    rfl

/-- A file is read as it is meant just if its lines fit and no value is turned off in it. -/
theorem confReadFile_iff (w : ConfHost) (path key : List UInt8) (cap : ℕ) (out : List UInt8)
    (hfit : ∀ text, w.file path = some text → ValuesFit key cap text) :
    (confReadFile w path key cap out = fileAnswer ((w.file path).bind (inForce key)) out ∧
        ∀ text, w.file path = some text → pieces newline confLineRoom text = lines newline text) ↔
      ∀ text, w.file path = some text → LinesFit text ∧ NeverBlanked key text := by
  unfold confReadFile
  cases hfile : w.file path with
  | none =>
    refine ⟨fun _ _ h => absurd h.symm (Option.some_ne_none _), fun _ => ⟨?_, fun _ h => absurd h.symm (Option.some_ne_none _)⟩⟩
    split <;> rfl
  | some text =>
    have hvalues := hfit text hfile
    have hscan : (lines newline text).foldl (confScanLine key cap) (false, out) =
        fileAnswer (inForce key text) out ↔ NeverBlanked key text := by
      rw [foldl_lines_eq hvalues, fileAnswer_inj, inForce, getLast_filter_iff]
      rfl
    have hzero : cap = 0 → (lines newline text).foldl (confScanLine key cap) (false, out) = (false, out) := by
      intro hcap
      have hnone : assignmentsOf key text = [] := by
        rw [List.eq_nil_iff_forall_not_mem]
        intro v hv
        have hlen := hvalues v hv
        omega
      rw [foldl_lines_eq hvalues, hnone]
      rfl
    have hread : pieces newline confLineRoom text = lines newline text →
        (if cap = 0 then (false, out)
          else (pieces newline confLineRoom text).foldl (confScanLine key cap) (false, out)) =
            (lines newline text).foldl (confScanLine key cap) (false, out) := by
      intro hpieces
      rw [hpieces]
      split
      · rename_i hcap
        exact (hzero hcap).symm
      · rfl
    constructor
    · rintro ⟨hanswer, hpieces⟩ text' htext
      obtain rfl := Option.some.inj htext
      have hlines := hpieces text rfl
      refine ⟨(pieces_eq_lines_iff newline confLineRoom text).mp hlines, hscan.mp ?_⟩
      rw [← hread hlines]
      exact hanswer
    · intro h
      obtain ⟨hlines, hblank⟩ := h text rfl
      have hpieces := (pieces_eq_lines_iff newline confLineRoom text).mpr hlines
      refine ⟨?_, fun text' htext => Option.some.inj htext ▸ hpieces⟩
      exact (hread hpieces).trans (hscan.mpr hblank)

/-! ## What the layers say -/

/-- The layers for a key, the highest first, with what each says. -/
def confLayers (w : ConfHost) (home : Option (List UInt8)) (key : List UInt8) :
    List (ConfLayer × Option (List UInt8)) :=
  (.env, (w.getenv key).filter (· ≠ [])) ::
    match home with
    | none => []
    | some h =>
      [(.host, (w.file (h ++ hostPath)).bind (inForce key)),
        (.lastResort, (w.file (h ++ lastResortPath)).bind (inForce key))]

/-- The layers of a lookup: those of the key with its suffix, all of them the one layer of the segment, and
those of the bare key. -/
def documentedLayers (w : ConfHost) (key : List UInt8) (segment home : Option (List UInt8)) :
    List (ConfLayer × Option (List UInt8)) :=
  (match segment.filter (· ≠ []) with
    | some s => (confLayers w home (suffixedKey key s)).map fun l => (.segment, l.2)
    | none => []) ++ confLayers w home key

/-- The first layer that says something, and what; the buffer stays as it is when none does. -/
def firstAnswer (layers : List (ConfLayer × Option (List UInt8))) (out : List UInt8) : ConfLayer × List UInt8 :=
  (layers.findSome? fun l => l.2.map fun v => (l.1, v)).getD (.none, out)

/-- The keys of a lookup. -/
def lookupKeys (key : List UInt8) (segment : Option (List UInt8)) : List (List UInt8) :=
  match segment.filter (· ≠ []) with
  | some s => [suffixedKey key s, key]
  | none => [key]

/-- The files of a lookup. -/
def lookupPaths (home : Option (List UInt8)) : List (List UInt8) :=
  match home with
  | some h => [h ++ hostPath, h ++ lastResortPath]
  | none => []

/-- For these keys the files of this home are such as are read as they are meant, and all values are shorter
than the output buffer. -/
structure ConfClear (w : ConfHost) (home : Option (List UInt8)) (keys : List (List UInt8)) (cap : ℕ) : Prop where
  env : ∀ k ∈ keys, ∀ v, w.getenv k = some v → v.length < cap
  values : ∀ k ∈ keys, ∀ path ∈ lookupPaths home, ∀ text, w.file path = some text → ValuesFit k cap text
  files : ∀ k ∈ keys, ∀ path ∈ lookupPaths home, ∀ text, w.file path = some text →
    LinesFit text ∧ NeverBlanked k text

/-- The longest home whose paths fit. -/
def confHomeMax : ℕ := 995

theorem snprintfBytes_of_lt {size : ℕ} {s : List UInt8} (h : s.length < size) : snprintfBytes size s = s :=
  List.take_of_length_le (by omega)

theorem hostPath_length : hostPath.length = 28 := rfl

theorem lastResortPath_length : lastResortPath.length = 27 := rfl

section Lookup

variable {w : ConfHost} {home : Option (List UInt8)} {keys : List (List UInt8)} {cap : ℕ} {k : List UInt8}

theorem ConfClear.readFile (hw : ConfClear w home keys cap) (hk : k ∈ keys) {path : List UInt8}
    (hpath : path ∈ lookupPaths home) (out : List UInt8) :
    confReadFile w path k cap out = fileAnswer ((w.file path).bind (inForce k)) out :=
  ((confReadFile_iff w path k cap out (hw.values k hk path hpath)).mpr (hw.files k hk path hpath)).1

theorem ConfClear.envValue (hw : ConfClear w home keys cap) (hk : k ∈ keys) {v : List UInt8}
    (hv : (w.getenv k).filter (· ≠ []) = some v) : snprintfBytes cap v = v :=
  snprintfBytes_of_lt (hw.env k hk v (Option.filter_eq_some_iff.mp hv).1)

theorem firstAnswer_some (l : ConfLayer) (v out : List UInt8) (ls : List (ConfLayer × Option (List UInt8))) :
    firstAnswer ((l, some v) :: ls) out = (l, v) := rfl

theorem firstAnswer_none (l : ConfLayer) (out : List UInt8) (ls : List (ConfLayer × Option (List UInt8))) :
    firstAnswer ((l, none) :: ls) out = firstAnswer ls out := rfl

/-- The bare key is answered by its first layer. -/
theorem lookupBare_eq {h : List UInt8} (hw : ConfClear w (some h) keys cap) (hk : k ∈ keys)
    (hmax : h.length ≤ confHomeMax) (out : List UInt8) :
    lookupBare w k h cap out = firstAnswer (confLayers w (some h) k) out := by
  have hbound : h.length ≤ 995 := hmax
  have hpaths : h ++ hostPath ∈ lookupPaths (some h) ∧ h ++ lastResortPath ∈ lookupPaths (some h) :=
    ⟨List.mem_cons_self, List.mem_cons_of_mem _ List.mem_cons_self⟩
  have hhost : snprintfBytes 1024 (h ++ hostPath) = h ++ hostPath :=
    snprintfBytes_of_lt (by rw [List.length_append, hostPath_length]; omega)
  have hlast : snprintfBytes 1024 (h ++ lastResortPath) = h ++ lastResortPath :=
    snprintfBytes_of_lt (by rw [List.length_append, lastResortPath_length]; omega)
  unfold lookupBare confLayers
  cases henv : (w.getenv k).filter (· ≠ []) with
  | some v =>
    dsimp only
    rw [hw.envValue hk henv, firstAnswer_some]
  | none =>
    dsimp only
    rw [hhost, hlast, hw.readFile hk hpaths.1, firstAnswer_none]
    cases (w.file (h ++ hostPath)).bind (inForce k) with
    | some v => rfl
    | none =>
      rw [show fileAnswer none out = (false, out) from rfl]
      dsimp only
      rw [if_neg Bool.false_ne_true, hw.readFile hk hpaths.2, firstAnswer_none]
      cases (w.file (h ++ lastResortPath)).bind (inForce k) with
      | some v => rfl
      | none => rfl

/-- An answer of a layer names it. -/
theorem firstAnswer_layers (w : ConfHost) (home : Option (List UInt8)) (k out : List UInt8) :
    ((firstAnswer (confLayers w home k) out).1 = .none ∧ firstAnswer (confLayers w home k) out = (.none, out) ∧
        ∀ ls, firstAnswer (((confLayers w home k).map fun l => (.segment, l.2)) ++ ls) out = firstAnswer ls out) ∨
      ((firstAnswer (confLayers w home k) out).1 ≠ .none ∧
        ∀ ls, firstAnswer (((confLayers w home k).map fun l => (.segment, l.2)) ++ ls) out =
          (.segment, (firstAnswer (confLayers w home k) out).2)) := by
  unfold confLayers
  cases (w.getenv k).filter (· ≠ []) with
  | some v => exact .inr ⟨ConfLayer.noConfusion, fun _ => rfl⟩
  | none =>
    cases home with
    | none => exact .inl ⟨rfl, rfl, fun _ => rfl⟩
    | some h =>
      dsimp only
      cases (w.file (h ++ hostPath)).bind (inForce k) with
      | some v => exact .inr ⟨ConfLayer.noConfusion, fun _ => rfl⟩
      | none =>
        cases (w.file (h ++ lastResortPath)).bind (inForce k) with
        | some v => exact .inr ⟨ConfLayer.noConfusion, fun _ => rfl⟩
        | none => exact .inl ⟨rfl, rfl, fun _ => rfl⟩

/-- The key with its suffix fits in its buffer. -/
def SegKeyFits (key : List UInt8) (segment : Option (List UInt8)) : Prop :=
  ∀ s, segment = some s → s ≠ [] → key.length + 1 + s.length ≤ 255

theorem suffixedKey_length (key s : List UInt8) : (suffixedKey key s).length = key.length + 1 + s.length := by
  have hone : (strBytes "_").length = 1 := rfl
  rw [suffixedKey, List.length_append, List.length_append, hone]

theorem segKey_eq {key s : List UInt8} (h : key.length + 1 + s.length ≤ 255) : segKey key s = suffixedKey key s := by
  have hfull := suffixedKey_length key s
  exact snprintfBytes_of_lt (by omega)

theorem firstAnswer_silent {ls : List (ConfLayer × Option (List UInt8))} (h : ∀ l ∈ ls, l.2 = none)
    (out : List UInt8) : firstAnswer ls out = (.none, out) := by
  have hnone : (ls.findSome? fun l => l.2.map fun v => (l.1, v)) = none := by
    rw [List.findSome?_eq_none_iff]
    intro l hl
    rw [h l hl]
    rfl
  rw [firstAnswer, hnone]
  rfl

/-- No value is shorter than nothing. -/
theorem ConfClear.silent (hw : ConfClear w home keys 0) (hk : k ∈ keys) :
    ∀ l ∈ confLayers w home k, l.2 = none := by
  have henv : (w.getenv k).filter (· ≠ []) = none := by
    cases hv : w.getenv k with
    | none => rfl
    | some v => exact absurd (hw.env k hk v hv) (Nat.not_lt_zero _)
  have hfile : ∀ path ∈ lookupPaths home, (w.file path).bind (inForce k) = none := by
    intro path hpath
    cases hf : w.file path with
    | none => rfl
    | some text =>
      have hempty : assignmentsOf k text = [] := by
        rw [List.eq_nil_iff_forall_not_mem]
        exact fun v hv => absurd (hw.values k hk path hpath text hf v hv) (Nat.not_lt_zero _)
      rw [Option.bind_some, inForce, hempty]
      rfl
  intro l hl
  unfold confLayers at hl
  rcases List.mem_cons.mp hl with rfl | hl
  · exact henv
  · cases home with
    | none => exact absurd hl List.not_mem_nil
    | some h =>
      rcases List.mem_cons.mp hl with rfl | hl
      · exact hfile _ List.mem_cons_self
      · rw [List.mem_singleton.mp hl]
        exact hfile _ (List.mem_cons_of_mem _ List.mem_cons_self)

/-- The keys that are looked up, and no others. -/
theorem mem_lookupKeys (key : List UInt8) (segment : Option (List UInt8)) :
    key ∈ lookupKeys key segment ∧
      ∀ s, segment.filter (· ≠ []) = some s → suffixedKey key s ∈ lookupKeys key segment := by
  unfold lookupKeys
  cases segment.filter (· ≠ []) with
  | none => exact ⟨List.mem_cons_self, fun _ h => absurd h.symm (Option.some_ne_none _)⟩
  | some s =>
    refine ⟨List.mem_cons_of_mem _ List.mem_cons_self, fun s' hs' => ?_⟩
    rw [Option.some.inj hs']
    exact List.mem_cons_self

/-- Without a home only the environment is asked. -/
theorem lookupEnv_eq {key : List UInt8} {segment : Option (List UInt8)}
    (hw : ConfClear w none (lookupKeys key segment) cap) (hseg : SegKeyFits key segment) (out : List UInt8) :
    lookupEnv w key segment cap out = firstAnswer (documentedLayers w key segment none) out := by
  obtain ⟨hbare, hsuffixed⟩ := mem_lookupKeys key segment
  have hkey : (match (w.getenv key).filter (· ≠ []) with
      | some e => (ConfLayer.env, snprintfBytes cap e)
      | none => (.none, out)) = firstAnswer (confLayers w none key) out := by
    unfold confLayers
    cases henv : (w.getenv key).filter (· ≠ []) with
    | none => rfl
    | some v =>
      dsimp only
      rw [hw.envValue hbare henv, firstAnswer_some]
  unfold lookupEnv documentedLayers
  cases hsegment : segment.filter (· ≠ []) with
  | none => exact hkey
  | some s =>
    obtain ⟨hs, hne⟩ := Option.filter_eq_some_iff.mp hsegment
    rw [Option.bind_some, segKey_eq (hseg s hs (of_decide_eq_true hne))]
    cases henv : (w.getenv (suffixedKey key s)).filter (· ≠ []) with
    | some v =>
      dsimp only
      rw [hw.envValue (hsuffixed s hsegment) henv, confLayers, henv]
      rfl
    | none =>
      have hsilent : confLayers w none (suffixedKey key s) = [(.env, none)] := by rw [confLayers, henv]
      dsimp only
      rw [hsilent]
      exact hkey

/-- Where everything fits, the lookup answers the first layer that says something. -/
theorem confLookup_eq {key : List UInt8} {segment : Option (List UInt8)}
    (hw : ConfClear w (confHome w home) (lookupKeys key segment) cap) (hseg : SegKeyFits key segment)
    (hhome : ∀ h, confHome w home = some h → h.length ≤ confHomeMax) (out : List UInt8) :
    confLookup w key segment home cap out = firstAnswer (documentedLayers w key segment (confHome w home)) out := by
  obtain ⟨hbare, hsuffixed⟩ := mem_lookupKeys key segment
  unfold confLookup
  by_cases hcap : cap = 0
  · subst hcap
    rw [if_pos rfl, firstAnswer_silent]
    intro l hl
    rcases List.mem_append.mp hl with hl | hl
    · cases hsegment : segment.filter (· ≠ []) with
      | none =>
        rw [hsegment] at hl
        exact absurd hl List.not_mem_nil
      | some s =>
        rw [hsegment] at hl
        obtain ⟨l', hl', rfl⟩ := List.mem_map.mp hl
        exact hw.silent (hsuffixed s hsegment) l' hl'
    · exact hw.silent hbare l hl
  rw [if_neg hcap]
  generalize hconf : confHome w home = found at hw hhome ⊢
  cases found with
  | none => exact lookupEnv_eq hw hseg out
  | some h =>
    have hmax := hhome h rfl
    unfold documentedLayers
    cases hsegment : segment.filter (· ≠ []) with
    | none => exact lookupBare_eq hw hbare hmax out
    | some s =>
      obtain ⟨hs, hne⟩ := Option.filter_eq_some_iff.mp hsegment
      have hlayers := firstAnswer_layers w (some h) (suffixedKey key s) out
      dsimp only
      rw [segKey_eq (hseg s hs (of_decide_eq_true hne)), lookupBare_eq hw (hsuffixed s hsegment) hmax]
      rcases hlayers with ⟨hnone, hanswer, happend⟩ | ⟨hsome, happend⟩
      · rw [if_neg (not_not.mpr hnone), happend, hanswer, lookupBare_eq hw hbare hmax]
      · rw [if_pos hsome, happend]

/-! ## The bounds are needed -/

/-- An environment in which only this name is set. -/
def onlyEnv (name : List UInt8) : ConfHost where
  getenv n := if n = name then some (strBytes "x") else none
  file _ := none

theorem segKey_length {key s : List UInt8} (hlong : 255 < key.length + 1 + s.length) :
    (segKey key s).length = 255 := by
  have htake : (segKey key s).length = min 255 (suffixedKey key s).length := List.length_take
  have hfull := suffixedKey_length key s
  omega

/-- Such a name is not that of the home. -/
theorem confHome_onlyEnv {key s : List UInt8} (hlong : 255 < key.length + 1 + s.length) :
    confHome (onlyEnv (segKey key s)) none = none := by
  have hcut := segKey_length hlong
  have hunset : (onlyEnv (segKey key s)).getenv (strBytes "HOME") = none := by
    refine if_neg fun h => ?_
    rw [← h] at hcut
    contradiction
  rw [confHome, hunset]
  rfl

/-- A key that does not fit is answered from the environment under another name. -/
theorem segKey_needed {key s : List UInt8} (hs : s ≠ []) (hlong : 255 < key.length + 1 + s.length) :
    confLookup (onlyEnv (segKey key s)) key (some s) none 2 [] ≠
      firstAnswer (documentedLayers (onlyEnv (segKey key s)) key (some s)
        (confHome (onlyEnv (segKey key s)) none)) [] := by
  have hcut := segKey_length hlong
  have hhome := confHome_onlyEnv hlong
  have hother : suffixedKey key s ≠ segKey key s := by
    intro h
    have hfull := suffixedKey_length key s
    rw [h] at hfull
    omega
  have hsome : (some s).filter (fun s => decide (s ≠ [])) = some s := if_pos (decide_eq_true hs)
  have hset : (onlyEnv (segKey key s)).getenv (segKey key s) = some (strBytes "x") := if_pos rfl
  have hunset : (onlyEnv (segKey key s)).getenv (suffixedKey key s) = none := if_neg hother
  have hcode : confLookup (onlyEnv (segKey key s)) key (some s) none 2 [] = (.segment, strBytes "x") := by
    rw [confLookup, if_neg (by decide), hhome]
    dsimp only
    rw [lookupEnv, hsome, Option.bind_some, hset]
    rfl
  have hlayers : documentedLayers (onlyEnv (segKey key s)) key (some s) none =
      (.segment, none) :: confLayers (onlyEnv (segKey key s)) none key := by
    rw [documentedLayers, hsome]
    dsimp only
    rw [confLayers, hunset]
    rfl
  rw [hcode, hhome, hlayers, firstAnswer_none, confLayers]
  cases ((onlyEnv (segKey key s)).getenv key).filter (· ≠ []) with
  | none => exact fun h => ConfLayer.noConfusion (Prod.mk.inj h).1
  | some v => exact fun h => ConfLayer.noConfusion (Prod.mk.inj h).1

/-- A host on which only this file exists. -/
def onlyFile (path : List UInt8) : ConfHost where
  getenv _ := none
  file p := if p = path then some (strBytes "K=1\n") else none

/-- The files of a home that does not fit are not found. -/
theorem home_needed {h : List UInt8} (hlong : confHomeMax < h.length) :
    confHome (onlyFile (h ++ hostPath)) (some h) = some h ∧
      confLookup (onlyFile (h ++ hostPath)) (strBytes "K") none (some h) 2 [] = (.none, []) ∧
        firstAnswer (documentedLayers (onlyFile (h ++ hostPath)) (strBytes "K") none (some h)) [] =
          (.host, strBytes "1") := by
  have hbound : 995 < h.length := hlong
  have hne : h ≠ [] := List.ne_nil_of_length_pos (by omega)
  have hhome : confHome (onlyFile (h ++ hostPath)) (some h) = some h := if_pos (decide_eq_true hne)
  have hcut : ∀ s, snprintfBytes 1024 s ≠ h ++ hostPath := by
    intro s heq
    have hlen := congrArg List.length heq
    have htake : (snprintfBytes 1024 s).length ≤ 1023 := List.length_take_le _ _
    rw [List.length_append, hostPath_length] at hlen
    omega
  have hmissing : ∀ s, confReadFile (onlyFile (h ++ hostPath)) (snprintfBytes 1024 s) (strBytes "K") 2 [] =
      (false, []) := by
    intro s
    have hnone : (onlyFile (h ++ hostPath)).file (snprintfBytes 1024 s) = none := if_neg (hcut s)
    rw [confReadFile, if_neg (by decide), hnone]
  refine ⟨hhome, ?_, ?_⟩
  · rw [confLookup, if_neg (by decide), hhome]
    dsimp only
    rw [show (none : Option (List UInt8)).filter (fun s => decide (s ≠ [])) = none from rfl]
    dsimp only
    rw [lookupBare, hmissing]
    dsimp only
    rw [hmissing]
    rfl
  · have hfile : (onlyFile (h ++ hostPath)).file (h ++ hostPath) = some (strBytes "K=1\n") := if_pos rfl
    have hvalue : inForce (strBytes "K") (strBytes "K=1\n") = some (strBytes "1") := by decide +kernel
    rw [documentedLayers, confLayers, hfile, Option.bind_some, hvalue]
    rfl

theorem confClear_onlyEnv (name : List UInt8) (keys : List (List UInt8)) : ConfClear (onlyEnv name) none keys 2 where
  env k _ v hv := by
    have hx : v = strBytes "x" := by
      unfold onlyEnv at hv
      dsimp only at hv
      split at hv
      · exact (Option.some.inj hv).symm
      · contradiction
    rw [hx]
    decide
  values _ _ path hpath := absurd hpath List.not_mem_nil
  files _ _ path hpath := absurd hpath List.not_mem_nil

theorem confClear_onlyFile (path : List UInt8) (home : Option (List UInt8)) :
    ConfClear (onlyFile path) home [strBytes "K"] 2 := by
  have htext : ∀ p text, (onlyFile path).file p = some text → text = strBytes "K=1\n" := by
    intro p text h
    unfold onlyFile at h
    dsimp only at h
    split at h
    · exact (Option.some.inj h).symm
    · contradiction
  have hvalues : assignmentsOf (strBytes "K") (strBytes "K=1\n") = [strBytes "1"] := by decide +kernel
  refine ⟨fun _ _ v hv => absurd hv.symm (Option.some_ne_none v), ?_, ?_⟩
  · intro k hk p _ text h
    rw [htext p text h, List.mem_singleton.mp hk, ValuesFit, hvalues]
    decide
  · intro k hk p _ text h
    rw [htext p text h, List.mem_singleton.mp hk, NeverBlanked, hvalues, LinesFit]
    decide +kernel

/-- The configuration has its documented meaning, for a file just if every line fits and no value is turned
off in it; for a key and a segment just if the two fit; for a home just if its paths do. -/
theorem conf_documented (w : ConfHost) (path key : List UInt8) (segment : Option (List UInt8))
    (h : List UInt8) (cap : ℕ) (out : List UInt8) :
    ((∀ text, w.file path = some text → ValuesFit key cap text) →
      ((confReadFile w path key cap out = fileAnswer ((w.file path).bind (inForce key)) out ∧
          ∀ text, w.file path = some text → pieces newline confLineRoom text = lines newline text) ↔
        ∀ text, w.file path = some text → LinesFit text ∧ NeverBlanked key text)) ∧
    ((∀ (w : ConfHost) (home : Option (List UInt8)) (cap : ℕ) (out : List UInt8),
      ConfClear w (confHome w home) (lookupKeys key segment) cap →
      (∀ h, confHome w home = some h → h.length ≤ confHomeMax) →
        confLookup w key segment home cap out =
          firstAnswer (documentedLayers w key segment (confHome w home)) out) ↔
      SegKeyFits key segment) ∧
    ((∀ (w : ConfHost) (home : Option (List UInt8)) (key : List UInt8) (segment : Option (List UInt8)) (cap : ℕ)
      (out : List UInt8), confHome w home = some h →
      ConfClear w (some h) (lookupKeys key segment) cap → SegKeyFits key segment →
        confLookup w key segment home cap out = firstAnswer (documentedLayers w key segment (some h)) out) ↔
      h.length ≤ confHomeMax) := by
  refine ⟨confReadFile_iff w path key cap out, ⟨?_, ?_⟩, ⟨?_, ?_⟩⟩
  · intro hright s hsegment hs
    by_contra hlong
    subst hsegment
    have hcut : 255 < key.length + 1 + s.length := Nat.lt_of_not_le hlong
    have hhome := confHome_onlyEnv hcut
    have heq := hright (onlyEnv (segKey key s)) none 2 [] (by rw [hhome]; exact confClear_onlyEnv _ _)
      (by rw [hhome]; exact fun h hh => absurd hh.symm (Option.some_ne_none h))
    exact segKey_needed hs hcut heq
  · exact fun hseg w home cap out hw hhome => confLookup_eq hw hseg hhome out
  · intro hright
    by_contra hlong
    obtain ⟨hhome, hcode, hdocumented⟩ := home_needed (Nat.lt_of_not_le hlong)
    have heq := hright (onlyFile (h ++ hostPath)) (some h) (strBytes "K") none 2 [] hhome
      (confClear_onlyFile _ _) (fun s hs => absurd hs.symm (Option.some_ne_none s))
    rw [hcode, hdocumented] at heq
    exact ConfLayer.noConfusion (Prod.mk.inj heq).1
  · intro hmax w home key segment cap out hhome hw hseg
    have heq : confLookup w key segment home cap out = _ := confLookup_eq (by rw [hhome]; exact hw) hseg
      (fun h' hh' => by rw [hhome] at hh'; rw [← Option.some.inj hh']; exact hmax) out
    rw [hhome] at heq
    exact heq

/-- A host with one file, in which a segment has a role of its own. -/
def segmentHost : ConfHost where
  getenv _ := none
  file p := if p = strBytes "/root" ++ hostPath then some (strBytes "REAC_ROLE=master\nexport REAC_ROLE_eth0='slave'\n")
    else none

theorem confClear_segmentHost : ConfClear segmentHost (some (strBytes "/root"))
    [strBytes "REAC_ROLE_eth0", strBytes "REAC_ROLE"] 16 := by
  have htext : ∀ p text, segmentHost.file p = some text →
      text = strBytes "REAC_ROLE=master\nexport REAC_ROLE_eth0='slave'\n" := by
    intro p text h
    unfold segmentHost at h
    dsimp only at h
    split at h
    · exact (Option.some.inj h).symm
    · contradiction
  have hall : ∀ k ∈ [strBytes "REAC_ROLE_eth0", strBytes "REAC_ROLE"],
      (∀ v ∈ assignmentsOf k (strBytes "REAC_ROLE=master\nexport REAC_ROLE_eth0='slave'\n"), v.length < 16) ∧
        (assignmentsOf k (strBytes "REAC_ROLE=master\nexport REAC_ROLE_eth0='slave'\n")).getLast? ≠ some [] := by
    decide +kernel
  have hlines : ∀ l ∈ lines newline (strBytes "REAC_ROLE=master\nexport REAC_ROLE_eth0='slave'\n"),
      l.length ≤ confLineRoom := by decide +kernel
  refine ⟨fun _ _ v hv => absurd hv.symm (Option.some_ne_none v), ?_, ?_⟩
  · intro k hk p _ text h
    rw [htext p text h]
    exact (hall k hk).1
  · intro k hk p _ text h
    rw [htext p text h]
    exact ⟨hlines, fun hblank => absurd hblank (hall k hk).2⟩

theorem conf_documented_segment :
    confLookup segmentHost (strBytes "REAC_ROLE") (some (strBytes "eth0")) (some (strBytes "/root")) 16 [] =
        (.segment, strBytes "slave") ∧
      confReadFile segmentHost (strBytes "/root" ++ hostPath) (strBytes "REAC_ROLE") 16 [] = (true, strBytes "master") := by
  have hhome : confHome segmentHost (some (strBytes "/root")) = some (strBytes "/root") := by decide +kernel
  have hkeys : lookupKeys (strBytes "REAC_ROLE") (some (strBytes "eth0")) =
      [strBytes "REAC_ROLE_eth0", strBytes "REAC_ROLE"] := by decide +kernel
  have hfits : SegKeyFits (strBytes "REAC_ROLE") (some (strBytes "eth0")) := by
    intro s hs _
    rw [← Option.some.inj hs]
    decide +kernel
  have hpath : strBytes "/root" ++ hostPath ∈ lookupPaths (some (strBytes "/root")) := List.mem_cons_self
  have hrole : strBytes "REAC_ROLE" ∈ [strBytes "REAC_ROLE_eth0", strBytes "REAC_ROLE"] :=
    List.mem_cons_of_mem _ List.mem_cons_self
  constructor
  · have hlookup := (conf_documented segmentHost [] (strBytes "REAC_ROLE") (some (strBytes "eth0")) [] 16
        []).2.1.mpr hfits segmentHost (some (strBytes "/root")) 16 []
      (by rw [hhome, hkeys]; exact confClear_segmentHost)
      (by rw [hhome]; intro h hh; rw [← Option.some.inj hh]; decide +kernel)
    rw [hlookup]
    decide +kernel
  · have hread := (((conf_documented segmentHost (strBytes "/root" ++ hostPath) (strBytes "REAC_ROLE") none []
      16 []).1
      (confClear_segmentHost.values _ hrole _ hpath)).mpr (confClear_segmentHost.files _ hrole _ hpath)).1
    rw [hread]
    decide +kernel

/-- A file in which a blank assignment turns a role off, and one with a long comment. -/
def blankedText : List UInt8 := strBytes "REAC_ROLE=master\nREAC_ROLE=\n"

def longText : List UInt8 := strBytes "#" ++ List.replicate 1022 32 ++ strBytes "REAC_ROLE=master\n"

/-- The role is not turned off, and the end of the comment is read as an assignment. -/
theorem conf_role_misread :
    (confReadFile ⟨fun _ => none, fun _ => some blankedText⟩ [] (strBytes "REAC_ROLE") 64 [] =
        (true, strBytes "master") ∧ inForce (strBytes "REAC_ROLE") blankedText = none) ∧
      confReadFile ⟨fun _ => none, fun _ => some longText⟩ [] (strBytes "REAC_ROLE") 64 [] =
        (true, strBytes "master") ∧ inForce (strBytes "REAC_ROLE") longText = none := by
  decide +kernel

end Lookup

end Libreac
