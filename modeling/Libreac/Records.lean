import Mathlib.Data.List.Basic
import Mathlib.Tactic.Ring

/-!
# Records in a buffer

A buffer holds records, each with its own length in front and padded to a multiple of four. A program
walks it with an index of 64 bits and by the lengths it finds (`walk`); every byte is read through `peek`,
which refuses to read past a limit. Taken apart as a list of bytes (`starts`, `records`) the buffer leaves
nothing to overrun. The two agree where the step from each record to the next stays within the buffer
(`walk_fits`), and nowhere else does the walk come to an end without reading past it (`walk_unfit`).
-/

namespace Records

/-- How a walk goes wrong: it reads past its limit, or it has no end. -/
inductive Fault where
  | outside | unfinished
  deriving DecidableEq

/-! ## Reading -/

/-- The byte at index `i`, which is to lie in front of `stop`. -/
def peek (bytes : List UInt8) (stop i : UInt64) : Except Fault UInt8 :=
  if i < stop then
    match bytes[i.toNat]? with
    | some b => .ok b
    | none => .error .outside
  else .error .outside

/-- Two bytes, the low one first. -/
def word16 (b₀ b₁ : UInt8) : UInt16 := b₁.toUInt16 <<< 8 ||| b₀.toUInt16

/-- Four bytes, the low one first. -/
def word32 (b₀ b₁ b₂ b₃ : UInt8) : UInt32 :=
  b₃.toUInt32 <<< 24 ||| b₂.toUInt32 <<< 16 ||| b₁.toUInt32 <<< 8 ||| b₀.toUInt32

def u16At (bytes : List UInt8) (stop i : UInt64) : Except Fault UInt16 := do
  let b₀ ← peek bytes stop i
  let b₁ ← peek bytes stop (i + 1)
  return word16 b₀ b₁

def u32At (bytes : List UInt8) (stop i : UInt64) : Except Fault UInt32 := do
  let b₀ ← peek bytes stop i
  let b₁ ← peek bytes stop (i + 1)
  let b₂ ← peek bytes stop (i + 2)
  let b₃ ← peek bytes stop (i + 3)
  return word32 b₀ b₁ b₂ b₃

/-- `n` bytes from index `i` on. -/
def bytesAt (bytes : List UInt8) (stop : UInt64) : UInt64 → ℕ → Except Fault (List UInt8)
  | _, 0 => return []
  | i, n + 1 => do
    let b ← peek bytes stop i
    let rest ← bytesAt bytes stop (i + 1) n
    return b :: rest

/-- The same fields of a list of bytes. -/
def byte (l : List UInt8) (i : ℕ) : UInt8 := l.getD i 0

def u16 (l : List UInt8) (i : ℕ) : UInt16 := word16 (byte l i) (byte l (i + 1))

def u32 (l : List UInt8) (i : ℕ) : UInt32 :=
  word32 (byte l i) (byte l (i + 1)) (byte l (i + 2)) (byte l (i + 3))

/-- `rest` is what the buffer holds from `off` up to `stop`. -/
structure Rest (bytes : List UInt8) (stop off : UInt64) (rest : List UInt8) : Prop where
  eq : rest = (bytes.take stop.toNat).drop off.toNat
  inside : stop.toNat ≤ bytes.length
  le : off.toNat ≤ stop.toNat

section Reading

variable {bytes rest : List UInt8} {stop off : UInt64}

theorem Rest.len (h : Rest bytes stop off rest) : off.toNat + rest.length = stop.toNat := by
  have hin := h.inside
  have hle := h.le
  rw [h.eq, List.length_drop, List.length_take]
  omega

theorem Rest.sub (h : Rest bytes stop off rest) : (stop - off).toNat = rest.length := by
  have hlen := h.len
  rw [UInt64.toNat_sub_of_le _ _ (UInt64.le_iff_toNat_le.mpr h.le)]
  omega

theorem Rest.add (h : Rest bytes stop off rest) {k : ℕ} (hk : k ≤ rest.length) :
    (off + UInt64.ofNat k).toNat = off.toNat + k := by
  have hlen := h.len
  have hlt := stop.toNat_lt
  rw [UInt64.toNat_add, UInt64.toNat_ofNat']
  omega

theorem Rest.drop (h : Rest bytes stop off rest) {k : ℕ} (hk : k ≤ rest.length) :
    Rest bytes stop (off + UInt64.ofNat k) (rest.drop k) := by
  have hadd := h.add hk
  have hlen := h.len
  refine ⟨?_, h.inside, by omega⟩
  rw [hadd, h.eq, List.drop_drop]

/-- The record at the front, up to its own end. -/
theorem Rest.take (h : Rest bytes stop off rest) {k : ℕ} (hk : k ≤ rest.length) :
    Rest bytes (off + UInt64.ofNat k) off (rest.take k) := by
  have hadd := h.add hk
  have hlen := h.len
  have hin := h.inside
  refine ⟨?_, by omega, by omega⟩
  rw [hadd, h.eq, List.drop_take, List.drop_take, List.take_take]
  congr 1
  omega

theorem byte_of_lt {l : List UInt8} {k : ℕ} (hk : k < l.length) : byte l k = l[k] := by
  unfold byte
  rw [List.getD_eq_getElem?_getD, List.getElem?_eq_getElem hk]
  rfl

theorem peek_rest (h : Rest bytes stop off rest) {k : ℕ} (hk : k < rest.length) :
    peek bytes stop (off + UInt64.ofNat k) = .ok (byte rest k) := by
  have hadd := h.add (Nat.le_of_lt hk)
  have hlen := h.len
  have hin := h.inside
  have hbyte : bytes[off.toNat + k]? = some (byte rest k) := by
    have hget : rest[k]? = some (byte rest k) := by
      rw [byte_of_lt hk, List.getElem?_eq_getElem hk]
    rw [← hget, h.eq, List.getElem?_drop, List.getElem?_take_of_lt (by omega)]
  unfold peek
  rw [if_pos (UInt64.lt_iff_toNat_lt.mpr (by omega)), hadd, hbyte]

/-- Past the end nothing is read. -/
theorem peek_outside {i : UInt64} (h : stop ≤ i) : peek bytes stop i = .error .outside := by
  unfold peek
  rw [if_neg (UInt64.not_lt.mpr h)]

theorem u16At_rest (h : Rest bytes stop off rest) {k : ℕ} (hk : k + 2 ≤ rest.length) :
    u16At bytes stop (off + UInt64.ofNat k) = .ok (u16 rest k) := by
  have hone : off + UInt64.ofNat k + 1 = off + UInt64.ofNat (k + 1) := by
    rw [UInt64.ofNat_add, ← UInt64.add_assoc]
    rfl
  unfold u16At
  rw [hone, peek_rest h (by omega), peek_rest h (by omega)]
  rfl

theorem u32At_rest (h : Rest bytes stop off rest) {k : ℕ} (hk : k + 4 ≤ rest.length) :
    u32At bytes stop (off + UInt64.ofNat k) = .ok (u32 rest k) := by
  have hnext : ∀ j : ℕ, off + UInt64.ofNat k + UInt64.ofNat j = off + UInt64.ofNat (k + j) := by
    intro j
    rw [UInt64.ofNat_add, ← UInt64.add_assoc]
  have hone : off + UInt64.ofNat k + 1 = _ := hnext 1
  have htwo : off + UInt64.ofNat k + 2 = _ := hnext 2
  have hthree : off + UInt64.ofNat k + 3 = _ := hnext 3
  unfold u32At
  rw [hone, htwo, hthree, peek_rest h (by omega), peek_rest h (by omega), peek_rest h (by omega),
    peek_rest h (by omega)]
  rfl

theorem bytesAt_rest (h : Rest bytes stop off rest) {n : ℕ} :
    ∀ {k : ℕ}, k + n ≤ rest.length →
      bytesAt bytes stop (off + UInt64.ofNat k) n = .ok ((rest.drop k).take n) := by
  induction n with
  | zero =>
    intro k _
    simp [bytesAt, pure, Except.pure]
  | succ n ih =>
    intro k hk
    have hone : off + UInt64.ofNat k + 1 = off + UInt64.ofNat (k + 1) := by
      rw [UInt64.ofNat_add, ← UInt64.add_assoc]
      rfl
    have hcons : (rest.drop k).take (n + 1) = byte rest k :: (rest.drop (k + 1)).take n := by
      rw [List.drop_eq_getElem_cons (by omega), List.take_succ_cons, byte_of_lt (by omega)]
    unfold bytesAt
    rw [peek_rest h (by omega), hone, ih (by omega), hcons]
    rfl

end Reading

/-! ## Walking -/

/-- `l`, padded. -/
def padded (l : ℕ) : ℕ := (l + 3) / 4 * 4

section Walk

variable {σ : Type}

/-- The loop over the records up to `stop`: each is at least a header long and lies in front of `stop`, or
the walk ends there; `body` may end it too. -/
def walk (stop header : UInt64) (lenAt : UInt64 → Except Fault UInt64) (stride : UInt64 → UInt64)
    (body : σ → UInt64 → UInt64 → Except Fault (σ × Bool)) : ℕ → σ → UInt64 → Except Fault σ
  | 0, _, _ => .error .unfinished
  | fuel + 1, s, off =>
    if stop - off < header then .ok s
    else
      match lenAt off with
      | .error f => .error f
      | .ok len =>
        if len < header ∨ stop - off < len then .ok s
        else
          match body s off len with
          | .error f => .error f
          | .ok (s, true) => walk stop header lenAt stride body fuel s (off + stride len)
          | .ok (s, false) => .ok s

/-- The same loop where the program keeps what is left as a number with a sign: a step past the end of the
buffer leaves less than nothing, and the loop ends. -/
def scan (header : UInt64) (lenAt : UInt64 → Except Fault UInt64) (stride : UInt64 → UInt64)
    (body : σ → UInt64 → UInt64 → Except Fault (σ × Bool)) : ℕ → σ → UInt64 → ℤ → Except Fault σ
  | 0, _, _, _ => .error .unfinished
  | fuel + 1, s, off, left =>
    if left < header.toNat then .ok s
    else
      match lenAt off with
      | .error f => .error f
      | .ok len =>
        if len < header ∨ left < len.toNat then .ok s
        else
          match body s off len with
          | .error f => .error f
          | .ok (s, true) =>
            scan header lenAt stride body fuel s (off + stride len) (left - (stride len).toNat)
          | .ok (s, false) => .ok s

/-- The suffixes of a buffer that start with a record, as far as one that `halts` accepts. -/
def starts (header : ℕ) (lenOf : List UInt8 → ℕ) (halts : List UInt8 → Bool) :
    ℕ → List UInt8 → List (List UInt8)
  | 0, _ => []
  | n + 1, rest =>
    if rest.length < header ∨ lenOf rest < header ∨ rest.length < lenOf rest then []
    else rest :: if halts rest then [] else starts header lenOf halts n (rest.drop (padded (lenOf rest)))

/-- What a program does at the records of a buffer: the length field is read at their front, `body` does
`effect` to a record that is `inside`, and else it fails. -/
structure Program (bytes : List UInt8) (stop header : UInt64) (lenAt : UInt64 → Except Fault UInt64)
    (stride : UInt64 → UInt64) (body : σ → UInt64 → UInt64 → Except Fault (σ × Bool))
    (lenOf : List UInt8 → ℕ) (halts : List UInt8 → Bool) (inside : List UInt8 → Prop)
    (effect : σ → List UInt8 → σ) : Prop where
  header_pos : 0 < header.toNat ∧ header.toNat ≤ 16
  stop_le : stop.toNat ≤ 9223372036854775807
  len_lt : ∀ rest, lenOf rest < 4294967296
  len_in : ∀ off rest, Rest bytes stop off rest → header.toNat ≤ rest.length →
    lenAt off = .ok (UInt64.ofNat (lenOf rest))
  len_out : ∀ off, stop ≤ off → lenAt off = .error .outside
  stride_cases : ∀ l : ℕ, l < 4294967296 → (stride (UInt64.ofNat l)).toNat = padded l ∨
    stride (UInt64.ofNat l) = 0
  body_in : ∀ s off rest, Rest bytes stop off rest → header.toNat ≤ lenOf rest →
    lenOf rest ≤ rest.length → inside rest →
      body s off (UInt64.ofNat (lenOf rest)) = .ok (effect s rest, !halts rest)
  body_out : ∀ s off rest, Rest bytes stop off rest → header.toNat ≤ lenOf rest →
    lenOf rest ≤ rest.length → ¬ inside rest → ∃ f, body s off (UInt64.ofNat (lenOf rest)) = .error f

variable {bytes : List UInt8} {stop header : UInt64} {lenAt : UInt64 → Except Fault UInt64}
  {stride : UInt64 → UInt64} {body : σ → UInt64 → UInt64 → Except Fault (σ × Bool)}
  {lenOf : List UInt8 → ℕ} {halts : List UInt8 → Bool} {inside : List UInt8 → Prop}
  {effect : σ → List UInt8 → σ} {off : UInt64} {rest : List UInt8}

/-- The step over the record stays within the buffer. -/
def Steps (stride : UInt64 → UInt64) (lenOf : List UInt8 → ℕ) (rest : List UInt8) : Prop :=
  (stride (UInt64.ofNat (lenOf rest))).toNat = padded (lenOf rest) ∧ padded (lenOf rest) ≤ rest.length

/-- The record is read inside, and if the walk goes on then it stays inside. -/
def Fits (stride : UInt64 → UInt64) (lenOf : List UInt8 → ℕ) (halts : List UInt8 → Bool)
    (inside : List UInt8 → Prop) (rest : List UInt8) : Prop :=
  inside rest ∧ (halts rest = true ∨ Steps stride lenOf rest)

theorem starts_stop {n : ℕ}
    (h : rest.length < header.toNat ∨ lenOf rest < header.toNat ∨ rest.length < lenOf rest) :
    starts header.toNat lenOf halts n rest = [] := by
  cases n with
  | zero => rfl
  | succ n => rw [starts, if_pos h]

/-- No more records start than the first argument allows. -/
theorem length_starts_le (header : ℕ) (n : ℕ) (rest : List UInt8) :
    (starts header lenOf halts n rest).length ≤ n := by
  induction n generalizing rest with
  | zero => exact Nat.le_refl 0
  | succ n ih =>
    rw [starts]
    split
    · exact Nat.zero_le _
    · split
      · rw [List.length_singleton]
        omega
      · rw [List.length_cons]
        have htail := ih (rest.drop (padded (lenOf rest)))
        omega

/-- A record starts at a suffix of the buffer. -/
theorem suffix_of_mem_starts {header n : ℕ} {r : List UInt8} :
    ∀ {rest : List UInt8}, r ∈ starts header lenOf halts n rest → r <:+ rest := by
  induction n with
  | zero => exact fun h => absurd h List.not_mem_nil
  | succ n ih =>
    intro rest h
    rw [starts] at h
    split at h
    · exact absurd h List.not_mem_nil
    · rcases List.mem_cons.mp h with rfl | h
      · exact List.suffix_refl _
      · split at h
        · exact absurd h List.not_mem_nil
        · exact (ih h).trans (List.drop_suffix _ _)

/-- A walk that halts at a record goes on as one that takes no notice of what follows. -/
theorem foldl_starts_halts (header : ℕ) {done : σ → Bool} (hhalt : ∀ s r, halts r = true → done (effect s r) = true)
    (hgo : ∀ s r, halts r = false → done (effect s r) = done s) (n : ℕ) (rest : List UInt8) {s : σ}
    (hs : done s = false) :
    (starts header lenOf halts n rest).foldl effect s =
      (starts header lenOf (fun _ => false) n rest).foldl (fun s r => if done s then s else effect s r) s := by
  have habsorb : ∀ (l : List (List UInt8)) (s : σ), done s = true →
      l.foldl (fun s r => if done s then s else effect s r) s = s := by
    intro l
    induction l with
    | nil => exact fun _ _ => rfl
    | cons r l ih =>
      intro s hs
      rw [List.foldl_cons, if_pos hs]
      exact ih s hs
  induction n generalizing rest s with
  | zero => rfl
  | succ n ih =>
    rw [starts, starts]
    split
    · rfl
    · rw [List.foldl_cons, List.foldl_cons, hs, if_neg Bool.false_ne_true]
      cases hhalts : halts rest with
      | true => exact (habsorb _ _ (hhalt s rest hhalts)).symm
      | false => exact ih _ ((hgo s rest hhalts).trans hs)

/-- Where what is left has a sign, the records of a buffer are all that is read, padded or not. -/
theorem scan_starts {n : ℕ} (hheader : 0 < header.toNat)
    (hlen : ∀ off rest, Rest bytes stop off rest → header.toNat ≤ rest.length →
      lenAt off = .ok (UInt64.ofNat (lenOf rest)) ∧ lenOf rest < 4294967296)
    (hstride : ∀ l ≤ bytes.length, (stride (UInt64.ofNat l)).toNat = padded l)
    (hbody : ∀ s off rest, Rest bytes stop off rest → header.toNat ≤ lenOf rest → lenOf rest ≤ rest.length →
      body s off (UInt64.ofNat (lenOf rest)) = .ok (effect s rest, !halts rest)) :
    ∀ {off : UInt64} {rest : List UInt8} {s : σ} {fuel : ℕ}, Rest bytes stop off rest → rest.length ≤ n →
      rest.length < fuel → scan header lenAt stride body fuel s off rest.length =
        .ok ((starts header.toNat lenOf halts n rest).foldl effect s) := by
  induction n with
  | zero =>
    intro off rest s fuel _ hn hfuel
    obtain ⟨fuel, rfl⟩ : ∃ k, fuel = k + 1 := ⟨fuel - 1, by omega⟩
    rw [scan, if_pos (by omega)]
    rfl
  | succ n ih =>
    intro off rest s fuel hr hn hfuel
    obtain ⟨fuel, rfl⟩ : ∃ k, fuel = k + 1 := ⟨fuel - 1, by omega⟩
    by_cases hshort : rest.length < header.toNat
    · rw [scan, if_pos (by omega), starts_stop (.inl hshort)]
      rfl
    · obtain ⟨hread, hlt⟩ := hlen off rest hr (by omega)
      have hnat : (UInt64.ofNat (lenOf rest)).toNat = lenOf rest := by
        rw [UInt64.toNat_ofNat']
        omega
      rw [scan, if_neg (by omega), hread]
      dsimp only
      by_cases hbad : lenOf rest < header.toNat ∨ rest.length < lenOf rest
      · rw [starts_stop (.inr hbad), if_pos]
        · rfl
        · rw [UInt64.lt_iff_toNat_lt, hnat]
          omega
      · rw [not_or, not_lt, not_lt] at hbad
        rw [if_neg (by rw [UInt64.lt_iff_toNat_lt, hnat]; omega), hbody s off rest hr hbad.1 hbad.2, starts,
          if_neg (by omega), List.foldl_cons]
        cases hhalts : halts rest with
        | true => rfl
        | false =>
          have hin := hr.inside
          have hrest := hr.len
          have hpad := hstride (lenOf rest) (by omega)
          have hlong : 0 < padded (lenOf rest) := by
            unfold padded
            omega
          simp only [Bool.not_false]
          rw [hpad]
          by_cases hfit : padded (lenOf rest) ≤ rest.length
          · have hoff : stride (UInt64.ofNat (lenOf rest)) = UInt64.ofNat (padded (lenOf rest)) := by
              rw [← hpad, UInt64.ofNat_toNat]
            have hdrop : (rest.drop (padded (lenOf rest))).length + padded (lenOf rest) = rest.length := by
              rw [List.length_drop]
              omega
            have hleft : (rest.length : ℤ) - (padded (lenOf rest) : ℕ) =
                ((rest.drop (padded (lenOf rest))).length : ℕ) := by omega
            rw [hoff, hleft]
            exact ih (hr.drop hfit) (by omega) (by omega)
          · -- The last record is not padded within the buffer.
            obtain ⟨fuel, rfl⟩ : ∃ k, fuel = k + 1 := ⟨fuel - 1, by omega⟩
            rw [scan, if_pos (by omega), List.drop_eq_nil_of_le (by omega), starts_stop]
            · rfl
            · exact .inl hheader

/-- More fuel does not change what a walk has come to. -/
theorem walk_mono {fuel : ℕ} : ∀ {k : ℕ} {s s' : σ} {off : UInt64}, fuel ≤ k →
    walk stop header lenAt stride body fuel s off = .ok s' →
      walk stop header lenAt stride body k s off = .ok s' := by
  induction fuel with
  | zero =>
    intro k s s' off _ h
    cases h
  | succ fuel ih =>
    intro k s s' off hk h
    obtain ⟨k, rfl⟩ : ∃ j, k = j + 1 := ⟨k - 1, by omega⟩
    rw [walk] at h ⊢
    split_ifs at h ⊢ with hshort
    · exact h
    · cases hlen : lenAt off with
      | error f =>
        rw [hlen] at h
        cases h
      | ok len =>
        rw [hlen] at h
        dsimp only at h ⊢
        split_ifs at h ⊢ with hbad
        · exact h
        · cases hbody : body s off len with
          | error f =>
            rw [hbody] at h
            cases h
          | ok r =>
            obtain ⟨s₁, more⟩ := r
            rw [hbody] at h
            cases more with
            | false => exact h
            | true => exact ih (by omega) h

/-- A record that starts there is complete. -/
theorem mem_starts {n : ℕ} : ∀ {rest r : List UInt8}, r ∈ starts header.toNat lenOf halts n rest →
    header.toNat ≤ lenOf r ∧ lenOf r ≤ r.length := by
  induction n with
  | zero =>
    intro rest r h
    cases h
  | succ n ih =>
    intro rest r h
    by_cases hstop : rest.length < header.toNat ∨ lenOf rest < header.toNat ∨ rest.length < lenOf rest
    · rw [starts_stop hstop] at h
      cases h
    · rw [starts, if_neg hstop, List.mem_cons] at h
      simp only [not_or, not_lt] at hstop
      rcases h with rfl | h
      · exact hstop.2
      · cases hhalts : halts rest with
        | true =>
          rw [hhalts] at h
          cases h
        | false =>
          rw [hhalts] at h
          exact ih h

variable (P : Program bytes stop header lenAt stride body lenOf halts inside effect)

include P

/-- At the end of the records the walk is over. -/
theorem Program.finished (hr : Rest bytes stop off rest)
    (h : rest.length < header.toNat ∨ lenOf rest < header.toNat ∨ rest.length < lenOf rest) (fuel : ℕ)
    (s : σ) : walk stop header lenAt stride body (fuel + 1) s off = .ok s := by
  have hsub := hr.sub
  have hlen : (UInt64.ofNat (lenOf rest)).toNat = lenOf rest := by
    have := P.len_lt rest
    rw [UInt64.toNat_ofNat']
    omega
  rw [walk]
  by_cases hshort : stop - off < header
  · rw [if_pos hshort]
  · rw [UInt64.lt_iff_toNat_lt] at hshort
    rw [if_neg (by rw [UInt64.lt_iff_toNat_lt]; exact hshort), P.len_in off rest hr (by omega)]
    dsimp only
    rw [if_pos]
    rw [UInt64.lt_iff_toNat_lt, UInt64.lt_iff_toNat_lt, hsub, hlen]
    omega

/-- A record is handed to the body. -/
theorem Program.record (hr : Rest bytes stop off rest)
    (h : ¬ (rest.length < header.toNat ∨ lenOf rest < header.toNat ∨ rest.length < lenOf rest))
    (fuel : ℕ) (s : σ) : walk stop header lenAt stride body (fuel + 1) s off =
      match body s off (UInt64.ofNat (lenOf rest)) with
      | .error f => .error f
      | .ok (s, true) =>
        walk stop header lenAt stride body fuel s (off + stride (UInt64.ofNat (lenOf rest)))
      | .ok (s, false) => .ok s := by
  simp only [not_or, not_lt] at h
  have hsub := hr.sub
  have hlen : (UInt64.ofNat (lenOf rest)).toNat = lenOf rest := by
    have := P.len_lt rest
    rw [UInt64.toNat_ofNat']
    omega
  have hlong : ¬ stop - off < header := by
    rw [UInt64.lt_iff_toNat_lt]
    omega
  have hgood : ¬ (UInt64.ofNat (lenOf rest) < header ∨ stop - off < UInt64.ofNat (lenOf rest)) := by
    rw [UInt64.lt_iff_toNat_lt, UInt64.lt_iff_toNat_lt]
    omega
  rw [walk, if_neg hlong, P.len_in off rest hr h.1]
  dsimp only
  rw [if_neg hgood]

omit P in
/-- The walk behind a record that it steps over. -/
theorem Steps.next (h : Steps stride lenOf rest) (hr : Rest bytes stop off rest) :
    Rest bytes stop (off + stride (UInt64.ofNat (lenOf rest))) (rest.drop (padded (lenOf rest))) := by
  have hstride : stride (UInt64.ofNat (lenOf rest)) = UInt64.ofNat (padded (lenOf rest)) := by
    rw [← h.1, UInt64.ofNat_toNat]
  rw [hstride]
  exact hr.drop h.2

/-- Where every record fits, the walk comes to an end and has done the effect of each. -/
theorem Program.walk_fits {n : ℕ} : ∀ {off : UInt64} {rest : List UInt8} {s : σ} {fuel : ℕ},
    Rest bytes stop off rest → rest.length ≤ n → rest.length < fuel →
      (∀ r ∈ starts header.toNat lenOf halts n rest, Fits stride lenOf halts inside r) →
        walk stop header lenAt stride body fuel s off =
          .ok ((starts header.toNat lenOf halts n rest).foldl effect s) := by
  induction n with
  | zero =>
    intro off rest s fuel hr hn hfuel _
    obtain ⟨fuel, rfl⟩ : ∃ k, fuel = k + 1 := ⟨fuel - 1, by omega⟩
    have hpos := P.header_pos.1
    exact P.finished hr (.inl (by omega)) fuel s
  | succ n ih =>
    intro off rest s fuel hr hn hfuel hfits
    obtain ⟨fuel, rfl⟩ : ∃ k, fuel = k + 1 := ⟨fuel - 1, by omega⟩
    by_cases hstop : rest.length < header.toNat ∨ lenOf rest < header.toNat ∨ rest.length < lenOf rest
    · rw [starts_stop hstop]
      exact P.finished hr hstop fuel s
    · rw [starts, if_neg hstop] at hfits ⊢
      rw [P.record hr hstop]
      simp only [not_or, not_lt] at hstop
      obtain ⟨hinside, hgo⟩ := hfits rest List.mem_cons_self
      rw [P.body_in s off rest hr hstop.2.1 hstop.2.2 hinside, List.foldl_cons]
      cases hhalts : halts rest with
      | true => rfl
      | false =>
        have hsteps : Steps stride lenOf rest := by
          rw [hhalts] at hgo
          simpa using hgo
        have hpos := P.header_pos.1
        have hlong : 0 < padded (lenOf rest) := by
          unfold padded
          omega
        have hdrop : (rest.drop (padded (lenOf rest))).length + padded (lenOf rest) = rest.length := by
          rw [List.length_drop]
          have := hsteps.2
          omega
        exact ih (hsteps.next hr) (by omega) (by omega) fun r hmem =>
          hfits r (List.mem_cons_of_mem _ (by rw [hhalts]; exact hmem))

/-- A record that does not step within the buffer is the last good thing the walk sees. -/
theorem Program.astray (hr : Rest bytes stop off rest)
    (hstop : ¬ (rest.length < header.toNat ∨ lenOf rest < header.toNat ∨ rest.length < lenOf rest))
    (hhalts : halts rest = false) (hsteps : ¬ Steps stride lenOf rest) :
    ∀ (fuel : ℕ) (s : σ), ∃ f, walk stop header lenAt stride body fuel s off = .error f := by
  have hlen := hr.len
  have hle := P.stop_le
  intro fuel
  induction fuel with
  | zero => exact fun s => ⟨_, rfl⟩
  | succ fuel ih =>
    intro s
    rw [P.record hr hstop]
    simp only [not_or, not_lt] at hstop
    by_cases hinside : inside rest
    · rw [P.body_in s off rest hr hstop.2.1 hstop.2.2 hinside, hhalts]
      rcases P.stride_cases (lenOf rest) (P.len_lt rest) with hstride | hstride
      · -- The next record would start past the end.
        have hover : ¬ padded (lenOf rest) ≤ rest.length := fun hfit => hsteps ⟨hstride, hfit⟩
        have hnear : padded (lenOf rest) < rest.length + 4 := by
          unfold padded
          omega
        have hnext : (off + stride (UInt64.ofNat (lenOf rest))).toNat =
            off.toNat + padded (lenOf rest) := by
          rw [UInt64.toNat_add, hstride]
          omega
        have hwrap : ¬ stop - (off + stride (UInt64.ofNat (lenOf rest))) < header := by
          have hpos := P.header_pos.2
          rw [UInt64.lt_iff_toNat_lt, UInt64.toNat_sub, hnext]
          omega
        have hpast : stop ≤ off + stride (UInt64.ofNat (lenOf rest)) := by
          rw [UInt64.le_iff_toNat_le, hnext]
          omega
        cases fuel with
        | zero => exact ⟨.unfinished, rfl⟩
        | succ fuel =>
          refine ⟨.outside, ?_⟩
          simp only [Bool.not_false, walk]
          rw [if_neg hwrap, P.len_out _ hpast]
      · -- The walk turns on the spot.
        have hzero : off + stride (UInt64.ofNat (lenOf rest)) = off := by
          rw [hstride, UInt64.add_zero]
        simp only [Bool.not_false]
        rw [hzero]
        exact ih _
    · obtain ⟨f, hf⟩ := P.body_out s off rest hr hstop.2.1 hstop.2.2 hinside
      rw [hf]
      exact ⟨f, rfl⟩

/-- Where a record does not fit, the walk fails, however long it goes on. -/
theorem Program.walk_unfit {n : ℕ} : ∀ {off : UInt64} {rest : List UInt8},
    Rest bytes stop off rest → (∃ r ∈ starts header.toNat lenOf halts n rest,
      ¬ Fits stride lenOf halts inside r) →
        ∀ (fuel : ℕ) (s : σ), ∃ f, walk stop header lenAt stride body fuel s off = .error f := by
  induction n with
  | zero =>
    rintro off rest _ ⟨r, hmem, -⟩
    cases hmem
  | succ n ih =>
    rintro off rest hr ⟨r, hmem, hunfit⟩ fuel s
    cases fuel with
    | zero => exact ⟨.unfinished, rfl⟩
    | succ fuel =>
      by_cases hstop : rest.length < header.toNat ∨ lenOf rest < header.toNat ∨ rest.length < lenOf rest
      · rw [starts_stop hstop] at hmem
        cases hmem
      · by_cases hfits : Fits stride lenOf halts inside rest
        · -- The record that does not fit comes later.
          rw [starts, if_neg hstop, List.mem_cons] at hmem
          rcases hmem with rfl | hmem
          · exact absurd hfits hunfit
          · obtain ⟨hinside, hgo⟩ := hfits
            rw [P.record hr hstop]
            simp only [not_or, not_lt] at hstop
            rw [P.body_in s off rest hr hstop.2.1 hstop.2.2 hinside]
            cases hhalts : halts rest with
            | true =>
              rw [hhalts] at hmem
              cases hmem
            | false =>
              rw [hhalts] at hmem hgo
              have hsteps : Steps stride lenOf rest := by simpa using hgo
              exact ih (hsteps.next hr) ⟨r, hmem, hunfit⟩ fuel _
        · by_cases hinside : inside rest
          · have hno : ¬ (halts rest = true ∨ Steps stride lenOf rest) := fun hgo => hfits ⟨hinside, hgo⟩
            rw [not_or, Bool.not_eq_true] at hno
            exact P.astray hr hstop hno.1 hno.2 _ s
          · rw [P.record hr hstop]
            simp only [not_or, not_lt] at hstop
            obtain ⟨f, hf⟩ := P.body_out s off rest hr hstop.2.1 hstop.2.2 hinside
            rw [hf]
            exact ⟨f, rfl⟩

/-- The walk over a buffer comes to an end inside it just if every record fits. -/
theorem Program.walk_iff {s s' : σ} (hr : Rest bytes stop off rest) :
    (∃ fuel, walk stop header lenAt stride body fuel s off = .ok s') ↔
      (∀ r ∈ starts header.toNat lenOf halts rest.length rest, Fits stride lenOf halts inside r) ∧
        s' = (starts header.toNat lenOf halts rest.length rest).foldl effect s := by
  constructor
  · rintro ⟨fuel, hwalk⟩
    by_cases hfits : ∀ r ∈ starts header.toNat lenOf halts rest.length rest,
        Fits stride lenOf halts inside r
    · refine ⟨hfits, ?_⟩
      have hlong := walk_mono (Nat.le_max_left fuel (rest.length + 1)) hwalk
      rw [P.walk_fits hr (Nat.le_refl _) (by omega) hfits] at hlong
      exact (Except.ok.inj hlong).symm
    · push Not at hfits
      obtain ⟨f, hf⟩ := P.walk_unfit hr hfits fuel s
      rw [hf] at hwalk
      cases hwalk
  · rintro ⟨hfits, rfl⟩
    exact ⟨rest.length + 1, P.walk_fits hr (Nat.le_refl _) (Nat.lt_succ_self _) hfits⟩

end Walk

end Records
