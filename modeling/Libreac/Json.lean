import Mathlib.Data.List.Basic

/-!
# Reading JSON

A value and a reader of it: literals, whole numbers, strings with the short escapes, arrays and objects,
with white space between any two of these. Whatever else JSON has (signs, fractions and exponents, code
points by number) is refused. `Spells` says that a text is read as a value wherever it stands; the lemmas
build the texts of larger values from those of their parts.
-/

/-- A JSON value. -/
inductive Json where
  | null
  | bool (b : Bool)
  | num (n : ℕ)
  | str (s : List Char)
  | arr (items : List Json)
  | obj (fields : List (List Char × Json))

namespace Json

/-! ## The reader -/

/-- White space. -/
def isSpace (c : Char) : Bool := c = ' ' || c = '\n' || c = '\r' || c = '\t'

/-- The text behind any white space. -/
def skip (cs : List Char) : List Char := cs.dropWhile isSpace

/-- The character a short escape stands for. -/
def unescape (c : Char) : Option Char :=
  if c = '"' ∨ c = '\\' ∨ c = '/' then some c
  else if c = 'n' then some '\n'
  else if c = 'r' then some '\r'
  else if c = 't' then some '\t'
  else if c = 'b' then some '\x08'
  else if c = 'f' then some '\x0c'
  else none

/-- The rest of a string behind its opening quote; control characters are not allowed in it. -/
def string : List Char → Option (List Char × List Char)
  | [] => none
  | '"' :: cs => some ([], cs)
  | '\\' :: e :: cs => do
    let c ← unescape e
    let (s, cs) ← string cs
    return (c :: s, cs)
  | c :: cs =>
    if c.toNat < 32 ∨ c = '\\' then none
    else do
      let (s, cs) ← string cs
      return (c :: s, cs)

/-- A whole number, which has no leading zero. -/
def number (cs : List Char) : Option (ℕ × List Char) :=
  let digits := cs.takeWhile Char.isDigit
  if digits = [] ∨ (1 < digits.length ∧ digits.head? = some '0') then none
  else some (Nat.ofDigitChars 10 digits 0, cs.dropWhile Char.isDigit)

mutual

/-- A value and the text behind it; the first argument bounds the depth of the recursion. -/
def value : ℕ → List Char → Option (Json × List Char)
  | 0, _ => none
  | fuel + 1, cs =>
    match skip cs with
    | 'n' :: 'u' :: 'l' :: 'l' :: cs => some (.null, cs)
    | 't' :: 'r' :: 'u' :: 'e' :: cs => some (.bool true, cs)
    | 'f' :: 'a' :: 'l' :: 's' :: 'e' :: cs => some (.bool false, cs)
    | '"' :: cs => (string cs).map fun (s, cs) => (.str s, cs)
    | '[' :: cs =>
      match skip cs with
      | ']' :: cs => some (.arr [], cs)
      | cs => (items fuel cs).map fun (vs, cs) => (.arr vs, cs)
    | '\x7b' :: cs =>
      match skip cs with
      | '\x7d' :: cs => some (.obj [], cs)
      | cs => (fields fuel cs).map fun (fs, cs) => (.obj fs, cs)
    | cs => (number cs).map fun (n, cs) => (.num n, cs)

/-- The items of an array, up to its closing bracket. -/
def items : ℕ → List Char → Option (List Json × List Char)
  | 0, _ => none
  | fuel + 1, cs =>
    match value fuel cs with
    | none => none
    | some (v, cs) =>
      match skip cs with
      | ',' :: cs => (items fuel cs).map fun (vs, cs) => (v :: vs, cs)
      | ']' :: cs => some ([v], cs)
      | _ => none

/-- The fields of an object, up to its closing brace. -/
def fields : ℕ → List Char → Option (List (List Char × Json) × List Char)
  | 0, _ => none
  | fuel + 1, cs =>
    match skip cs with
    | '"' :: cs =>
      match string cs with
      | none => none
      | some (k, cs) =>
        match skip cs with
        | ':' :: cs =>
          match value fuel cs with
          | none => none
          | some (v, cs) =>
            match skip cs with
            | ',' :: cs => (fields fuel cs).map fun (fs, cs) => ((k, v) :: fs, cs)
            | '\x7d' :: cs => some ([(k, v)], cs)
            | _ => none
        | _ => none
    | _ => none

end

/-- The value a whole text spells. -/
def parse (cs : List Char) : Option Json :=
  match value (cs.length + 1) cs with
  | some (v, cs) => if skip cs = [] then some v else none
  | none => none

/-- The field of an object. -/
def field (k : List Char) : Json → Option Json
  | obj fs => (fs.find? fun f => f.1 = k).map Prod.snd
  | _ => none

/-- The items of an array. -/
def items? : Json → Option (List Json)
  | arr vs => some vs
  | _ => none

/-- The characters of a string. -/
def str? : Json → Option (List Char)
  | str s => some s
  | _ => none

/-- A truth value. -/
def bool? : Json → Option Bool
  | bool b => some b
  | _ => none

/-- A number. -/
def num? : Json → Option ℕ
  | num n => some n
  | _ => none

/-! ## Texts -/

/-- A number that ends in front of this text would not go on in it. -/
def Ends (rest : List Char) : Prop := ∀ c ∈ rest.head?, c.isDigit = false

/-- A value starts with this character: it is none that an empty array or object would end with. -/
def Opens (c : Char) : Prop := isSpace c = false ∧ c ≠ ']' ∧ c ≠ '\x7d'

/-- The text is read as the value. -/
structure Spells (cs : List Char) (v : Json) : Prop where
  opens : ∃ c cs', cs = c :: cs' ∧ Opens c
  reads : ∀ fuel, cs.length ≤ fuel → ∀ rest, Ends rest → value fuel (cs ++ rest) = some (v, rest)

/-- A string whose characters stand for themselves. -/
def Plain (s : List Char) : Prop := ∀ c ∈ s, 32 ≤ c.toNat ∧ c ≠ '"' ∧ c ≠ '\\'

/-- The text of a string whose characters stand for themselves. -/
def quoted (s : List Char) : List Char := '"' :: (s ++ ['"'])

/-- The text of a field. -/
def pair (k cs : List Char) : List Char := quoted k ++ ':' :: cs

/-- The text of an array with these items. -/
def bracketed (items : List (List Char)) : List Char := '[' :: ([','].intercalate items ++ [']'])

/-- The text of an object with these fields. -/
def braced (fields : List (List Char)) : List Char := '\x7b' :: ([','].intercalate fields ++ ['\x7d'])

theorem plain_of_all {s : List Char} (h : (s.all fun c => 32 ≤ c.toNat && c != '"' && c != '\\') = true) :
    Plain s := by
  intro c hc
  have hc := List.all_eq_true.mp h c hc
  simp only [Bool.and_eq_true, decide_eq_true_eq, bne_iff_ne] at hc
  exact ⟨hc.1.1, hc.1.2, hc.2⟩

theorem Plain.append {s t : List Char} (hs : Plain s) (ht : Plain t) : Plain (s ++ t) := by
  intro c hc
  rcases List.mem_append.mp hc with hc | hc
  · exact hs c hc
  · exact ht c hc

/-- A digit is no other character that the reader knows. -/
theorem digit_ne {c d : Char} (h : c.isDigit = true) (hd : d.isDigit = false) : c ≠ d := by
  rintro rfl
  rw [h] at hd
  contradiction

theorem plain_of_digits {s : List Char} (h : ∀ c ∈ s, c.isDigit = true) : Plain s := by
  intro c hc
  refine ⟨?_, digit_ne (h c hc) rfl, digit_ne (h c hc) rfl⟩
  have hlow : 48 ≤ c.toNat := (Char.isDigit_iff_toNat.mp (h c hc)).1
  omega

theorem skip_cons {c : Char} (h : isSpace c = false) (cs : List Char) : skip (c :: cs) = c :: cs := by
  unfold skip
  rw [List.dropWhile_cons_of_neg (by rw [h]; exact Bool.false_ne_true)]

theorem string_plain {s : List Char} (h : Plain s) (rest : List Char) :
    string (s ++ '"' :: rest) = some (s, rest) := by
  induction s with
  | nil => rfl
  | cons c s ih =>
    obtain ⟨hctrl, hquote, hescape⟩ := h c List.mem_cons_self
    have hplain : ¬ (c.toNat < 32 ∨ c = '\\') := by
      rintro (hlow | hslash)
      · omega
      · exact hescape hslash
    have hrest := ih fun c hc => h c (List.mem_cons_of_mem _ hc)
    rw [List.cons_append, string]
    · rw [if_neg hplain, hrest]
      rfl
    · exact hquote
    · exact fun _ _ hslash => absurd hslash hescape

/-! ### Strings, numbers and truth values -/

theorem spells_str {s : List Char} (h : Plain s) : Spells (quoted s) (.str s) := by
  refine ⟨⟨'"', _, rfl, rfl, by decide, by decide⟩, ?_⟩
  intro fuel hfuel rest _
  obtain ⟨k, rfl⟩ : ∃ k, fuel = k + 1 := ⟨fuel - 1, by rw [quoted, List.length_cons] at hfuel; omega⟩
  rw [quoted, List.cons_append, List.append_assoc, List.singleton_append]
  unfold value
  rw [skip_cons rfl]
  show (string (s ++ '"' :: rest)).map _ = _
  rw [string_plain h]
  rfl

theorem spells_bool (b : Bool) : Spells (if b then "true".toList else "false".toList) (.bool b) := by
  cases b with
  | true =>
    refine ⟨⟨'t', _, rfl, rfl, by decide, by decide⟩, ?_⟩
    intro fuel hfuel rest _
    obtain ⟨k, rfl⟩ : ∃ k, fuel = k + 1 := ⟨fuel - 1, by
      have hpos : 4 ≤ fuel := hfuel
      omega⟩
    rfl
  | false =>
    refine ⟨⟨'f', _, rfl, rfl, by decide, by decide⟩, ?_⟩
    intro fuel hfuel rest _
    obtain ⟨k, rfl⟩ : ∃ k, fuel = k + 1 := ⟨fuel - 1, by
      have hpos : 5 ≤ fuel := hfuel
      omega⟩
    rfl

/-- The first digit of a number of several digits is not zero. -/
theorem head_toDigits {n : ℕ} (h : 0 < n) : (Nat.toDigits 10 n).head? ≠ some '0' := by
  induction n using Nat.strongRecOn with
  | ind n ih =>
    by_cases hsmall : n < 10
    · rw [Nat.toDigits_of_lt_base hsmall]
      have hdigits : ∀ m < 10, 0 < m → [Nat.digitChar m].head? ≠ some '0' := by decide
      exact hdigits n hsmall h
    · have hne : Nat.toDigits 10 (n / 10) ≠ [] := Nat.toDigits_ne_nil
      rw [Nat.toDigits_of_base_le (by omega) (by omega), List.head?_append_of_ne_nil _ hne]
      exact ih (n / 10) (by omega) (by omega)

theorem number_toDigits (n : ℕ) {rest : List Char} (h : Ends rest) :
    number (Nat.toDigits 10 n ++ rest) = some (n, rest) := by
  have hall : ∀ c ∈ Nat.toDigits 10 n, c.isDigit = true :=
    fun c hc => Nat.isDigit_of_mem_toDigits (by omega) (by omega) hc
  have hstop : rest.takeWhile Char.isDigit = [] ∧ rest.dropWhile Char.isDigit = rest := by
    cases rest with
    | nil => exact ⟨rfl, rfl⟩
    | cons c rest =>
      have hc : ¬ c.isDigit = true := by
        rw [h c rfl]
        exact Bool.false_ne_true
      exact ⟨List.takeWhile_cons_of_neg hc, List.dropWhile_cons_of_neg hc⟩
  have hne : Nat.toDigits 10 n ≠ [] := Nat.toDigits_ne_nil
  have hzero : ¬ (1 < (Nat.toDigits 10 n).length ∧ (Nat.toDigits 10 n).head? = some '0') := by
    rintro ⟨hlong, hhead⟩
    by_cases hn : n = 0
    · rw [hn, Nat.toDigits_zero] at hlong
      exact Nat.lt_irrefl 1 hlong
    · exact head_toDigits (Nat.pos_of_ne_zero hn) hhead
  unfold number
  dsimp only
  rw [List.takeWhile_append_of_pos hall, List.dropWhile_append_of_pos hall, hstop.1, hstop.2, List.append_nil,
    if_neg (not_or.mpr ⟨hne, hzero⟩), Nat.ofDigitChars_ten_toDigits]

theorem opens_digit {c : Char} (h : c.isDigit = true) : Opens c := by
  refine ⟨?_, digit_ne h rfl, digit_ne h rfl⟩
  unfold isSpace
  simp only [decide_eq_false (digit_ne h (rfl : Char.isDigit ' ' = false)),
    decide_eq_false (digit_ne h (rfl : Char.isDigit '\n' = false)),
    decide_eq_false (digit_ne h (rfl : Char.isDigit '\r' = false)),
    decide_eq_false (digit_ne h (rfl : Char.isDigit '\t' = false)), Bool.or_self]

/-- A text that starts with a digit is a number. -/
theorem value_digit {c : Char} (h : c.isDigit = true) (fuel : ℕ) (cs : List Char) :
    value (fuel + 1) (c :: cs) = (number (c :: cs)).map fun (n, cs) => (.num n, cs) := by
  unfold value
  rw [skip_cons (opens_digit h).1]
  split
  · exact absurd (List.cons.inj ‹_›).1 (digit_ne h rfl)
  · exact absurd (List.cons.inj ‹_›).1 (digit_ne h rfl)
  · exact absurd (List.cons.inj ‹_›).1 (digit_ne h rfl)
  · exact absurd (List.cons.inj ‹_›).1 (digit_ne h rfl)
  · exact absurd (List.cons.inj ‹_›).1 (digit_ne h rfl)
  · exact absurd (List.cons.inj ‹_›).1 (digit_ne h rfl)
  · rfl

theorem spells_num (n : ℕ) : Spells (Nat.toDigits 10 n) (.num n) := by
  obtain ⟨c, cs, hcons⟩ := List.exists_cons_of_ne_nil (Nat.toDigits_ne_nil (n := n) (b := 10))
  have hdigit : c.isDigit = true :=
    Nat.isDigit_of_mem_toDigits (b := 10) (n := n) (by omega) (by omega) (by rw [hcons]; exact List.mem_cons_self)
  refine ⟨⟨c, cs, hcons, opens_digit hdigit⟩, ?_⟩
  intro fuel hfuel rest hrest
  have hnumber := number_toDigits n hrest
  rw [hcons] at hfuel hnumber ⊢
  obtain ⟨k, rfl⟩ : ∃ k, fuel = k + 1 := ⟨fuel - 1, by rw [List.length_cons] at hfuel; omega⟩
  rw [List.cons_append] at hnumber ⊢
  rw [value_digit hdigit, hnumber]
  rfl

/-! ### Arrays and objects -/

theorem ends_cons {c : Char} (h : c.isDigit = false) (rest : List Char) : Ends (c :: rest) := by
  intro d hd
  rw [List.head?_cons, Option.mem_some_iff] at hd
  rw [← hd]
  exact h

/-- Items with commas between them are read up to the closing bracket. -/
theorem items_intercalate {t : List Char} {v : Json} {ts : List (List Char)} {vs : List Json} (h : Spells t v)
    (hs : List.Forall₂ Spells ts vs) :
    ∀ fuel, ([','].intercalate (t :: ts)).length < fuel → ∀ rest,
      items fuel ([','].intercalate (t :: ts) ++ ']' :: rest) = some (v :: vs, rest) := by
  induction hs generalizing t v with
  | nil =>
    intro fuel hfuel rest
    obtain ⟨k, rfl⟩ : ∃ k, fuel = k + 1 := ⟨fuel - 1, by omega⟩
    rw [List.intercalate_singleton] at hfuel ⊢
    unfold items
    rw [h.reads k (by omega) _ (ends_cons rfl rest)]
    rfl
  | @cons t' v' ts vs h' _ ih =>
    intro fuel hfuel rest
    obtain ⟨k, rfl⟩ : ∃ k, fuel = k + 1 := ⟨fuel - 1, by omega⟩
    have hlen : t.length + 1 + ([','].intercalate (t' :: ts)).length < k + 1 := by
      rw [List.intercalate_cons_cons, List.length_append, List.length_append, List.length_singleton] at hfuel
      exact hfuel
    rw [List.intercalate_cons_cons, List.append_assoc, List.append_assoc, List.singleton_append]
    unfold items
    rw [h.reads k (by omega) _ (ends_cons rfl _)]
    show (items k _).map _ = _
    rw [ih h' k (by omega) rest]
    rfl

/-- Behind an opening bracket the first item starts. -/
theorem value_bracket {c : Char} (h : Opens c) (fuel : ℕ) (cs : List Char) :
    value (fuel + 1) ('[' :: c :: cs) = (items fuel (c :: cs)).map fun (vs, cs) => (.arr vs, cs) := by
  unfold value
  rw [skip_cons rfl]
  change (match skip (c :: cs) with
    | ']' :: cs => some (arr [], cs)
    | cs => (items fuel cs).map fun (vs, cs) => (.arr vs, cs)) = _
  rw [skip_cons h.1]
  split
  · exact absurd (List.cons.inj ‹_›).1 h.2.1
  · rfl

/-- Behind an opening brace the first field starts. -/
theorem value_brace {c : Char} (h : Opens c) (fuel : ℕ) (cs : List Char) :
    value (fuel + 1) ('\x7b' :: c :: cs) = (fields fuel (c :: cs)).map fun (fs, cs) => (.obj fs, cs) := by
  unfold value
  rw [skip_cons rfl]
  change (match skip (c :: cs) with
    | '\x7d' :: cs => some (obj [], cs)
    | cs => (fields fuel cs).map fun (fs, cs) => (.obj fs, cs)) = _
  rw [skip_cons h.1]
  split
  · exact absurd (List.cons.inj ‹_›).1 h.2.2
  · rfl

theorem spells_arr {ts : List (List Char)} {vs : List Json} (h : List.Forall₂ Spells ts vs) :
    Spells (bracketed ts) (.arr vs) := by
  refine ⟨⟨'[', _, rfl, rfl, by decide, by decide⟩, ?_⟩
  intro fuel hfuel rest _
  obtain ⟨k, rfl⟩ : ∃ k, fuel = k + 1 := ⟨fuel - 1, by rw [bracketed, List.length_cons] at hfuel; omega⟩
  have hlen : ([','].intercalate ts).length < k := by
    rw [bracketed, List.length_cons, List.length_append, List.length_singleton] at hfuel
    omega
  rw [bracketed, List.cons_append, List.append_assoc, List.singleton_append]
  cases h with
  | nil => rfl
  | @cons t v ts vs ht hts =>
    obtain ⟨c, cs, hopens, hc⟩ : ∃ c cs, [','].intercalate (t :: ts) ++ ']' :: rest = c :: cs ∧ Opens c := by
      obtain ⟨c, cs, rfl, hc⟩ := ht.opens
      cases ts with
      | nil => exact ⟨c, _, by rw [List.intercalate_singleton, List.cons_append], hc⟩
      | cons t ts =>
        exact ⟨c, _, by rw [List.intercalate_cons_cons, List.cons_append, List.cons_append, List.cons_append], hc⟩
    have hitems := items_intercalate ht hts k hlen rest
    rw [hopens] at hitems ⊢
    rw [value_bracket hc, hitems]
    rfl

/-- The text is that of a field. -/
def SpellsField (t : List Char) (f : List Char × Json) : Prop :=
  Plain f.1 ∧ ∃ cs, t = pair f.1 cs ∧ Spells cs f.2

/-- A field is read up to what stands behind its value. -/
theorem fields_pair {k cs : List Char} {v : Json} (hk : Plain k) (h : Spells cs v) {fuel : ℕ}
    (hfuel : cs.length ≤ fuel) {rest : List Char} (hrest : Ends rest) :
    fields (fuel + 1) (pair k cs ++ rest) =
      match skip rest with
      | ',' :: cs => (fields fuel cs).map fun (fs, cs) => ((k, v) :: fs, cs)
      | '\x7d' :: cs => some ([(k, v)], cs)
      | _ => none := by
  have hstring := string_plain hk (':' :: (cs ++ rest))
  rw [fields, pair, quoted, List.cons_append, List.cons_append, List.append_assoc, List.append_assoc,
    List.singleton_append, List.cons_append, skip_cons rfl]
  change (match string (k ++ '"' :: ':' :: (cs ++ rest)) with
    | none => none
    | some (k, cs) => _) = _
  rw [hstring]
  change (match value fuel (cs ++ rest) with
    | none => none
    | some (v, cs) => _) = _
  rw [h.reads fuel hfuel rest hrest]

/-- Fields with commas between them are read up to the closing brace. -/
theorem fields_intercalate {t : List Char} {f : List Char × Json} {ts : List (List Char)}
    {fs : List (List Char × Json)} (h : SpellsField t f) (hs : List.Forall₂ SpellsField ts fs) :
    ∀ fuel, ([','].intercalate (t :: ts)).length < fuel → ∀ rest,
      fields fuel ([','].intercalate (t :: ts) ++ '\x7d' :: rest) = some (f :: fs, rest) := by
  induction hs generalizing t f with
  | nil =>
    intro fuel hfuel rest
    obtain ⟨k, rfl⟩ : ∃ k, fuel = k + 1 := ⟨fuel - 1, by omega⟩
    obtain ⟨hplain, cs, rfl, hcs⟩ := h
    have hlen : cs.length < k := by
      rw [List.intercalate_singleton, pair, List.length_append, List.length_cons] at hfuel
      omega
    rw [List.intercalate_singleton, fields_pair hplain hcs (Nat.le_of_lt hlen) (ends_cons rfl rest)]
    rfl
  | @cons t' f' ts fs h' _ ih =>
    intro fuel hfuel rest
    obtain ⟨k, rfl⟩ : ∃ k, fuel = k + 1 := ⟨fuel - 1, by omega⟩
    obtain ⟨hplain, cs, rfl, hcs⟩ := h
    have hlen : cs.length + 1 + ([','].intercalate (t' :: ts)).length < k + 1 := by
      rw [List.intercalate_cons_cons, List.length_append, List.length_append, List.length_singleton, pair,
        List.length_append, List.length_cons] at hfuel
      omega
    rw [List.intercalate_cons_cons, List.append_assoc, List.append_assoc, List.singleton_append,
      fields_pair hplain hcs (by omega) (ends_cons rfl _)]
    show (fields k _).map _ = _
    rw [ih h' k (by omega) rest]
    rfl

theorem spells_obj {ts : List (List Char)} {fs : List (List Char × Json)} (h : List.Forall₂ SpellsField ts fs) :
    Spells (braced ts) (.obj fs) := by
  refine ⟨⟨'\x7b', _, rfl, rfl, by decide, by decide⟩, ?_⟩
  intro fuel hfuel rest _
  obtain ⟨k, rfl⟩ : ∃ k, fuel = k + 1 := ⟨fuel - 1, by rw [braced, List.length_cons] at hfuel; omega⟩
  have hlen : ([','].intercalate ts).length < k := by
    rw [braced, List.length_cons, List.length_append, List.length_singleton] at hfuel
    omega
  rw [braced, List.cons_append, List.append_assoc, List.singleton_append]
  cases h with
  | nil => rfl
  | @cons t f ts fs ht hts =>
    have hfields := fields_intercalate ht hts k hlen rest
    obtain ⟨hplain, cs, rfl, hcs⟩ := ht
    obtain ⟨cs', hopens⟩ : ∃ cs', [','].intercalate (pair f.1 cs :: ts) ++ '\x7d' :: rest = '"' :: cs' := by
      cases ts with
      | nil => exact ⟨_, by rw [List.intercalate_singleton, pair, quoted, List.cons_append, List.cons_append]⟩
      | cons t ts =>
        exact ⟨_, by rw [List.intercalate_cons_cons, pair, quoted, List.cons_append, List.cons_append,
          List.cons_append, List.cons_append]⟩
    rw [hopens] at hfields ⊢
    rw [value_brace ⟨rfl, by decide, by decide⟩, hfields]
    rfl

/-- A text that spells a value is parsed as it. -/
theorem parse_of_spells {t : List Char} {v : Json} (h : Spells t v) : parse t = some v := by
  have hread := h.reads (t.length + 1) (Nat.le_succ _) [] fun c hc => absurd hc (Option.not_mem_none c)
  rw [List.append_nil] at hread
  rw [parse, hread]
  rfl

end Json
