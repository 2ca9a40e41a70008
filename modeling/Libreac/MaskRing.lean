import Mathlib.Data.Nat.Bitwise
import Libreac.WordRing

/-!
# Rings with masked indices

A ring of `2 ^ k` cells whose two indices are kept below its size by a mask. One cell is never used, so
that a full ring is told from an empty one. `contents` is the queue the ring stands for; whatever is in
the other cells is not part of it. A `Ledger` ties the queue to everything that was ever put into it.
-/

/-- The mask and the indices of a ring: the producer moves `head`, the consumer `tail`. -/
structure MaskRing where
  mask : UInt32
  head : UInt32 := 0
  tail : UInt32 := 0
  deriving DecidableEq, Repr

namespace MaskRing

/-! ## Rounding up -/

/-- The power of two that is at least `v`, or 0 if 32 bits do not hold it. -/
def nextPow2 (v : UInt32) : UInt32 :=
  if v < 2 then 2
  else
    let v := v - 1
    let v := v ||| (v >>> 1)
    let v := v ||| (v >>> 2)
    let v := v ||| (v >>> 4)
    let v := v ||| (v >>> 8)
    let v := v ||| (v >>> 16)
    v + 1

/-- A bit of `y` is set just if one of `w` bits of `x` from there on is. -/
def Smeared (x : ℕ) (w y : ℕ) : Prop := ∀ i, y.testBit i = true ↔ ∃ j < w, x.testBit (i + j) = true

theorem smeared_self (x : ℕ) : Smeared x 1 x := by
  intro i
  constructor
  · intro h
    exact ⟨0, Nat.one_pos, h⟩
  · rintro ⟨j, hj, h⟩
    obtain rfl : j = 0 := by omega
    exact h

/-- Twice as many bits. -/
theorem Smeared.double {x w y : ℕ} (h : Smeared x w y) : Smeared x (w + w) (y ||| y >>> w) := by
  intro i
  rw [Nat.testBit_or, Nat.testBit_shiftRight, Bool.or_eq_true, h, h]
  constructor
  · rintro (⟨j, hj, hbit⟩ | ⟨j, hj, hbit⟩)
    · exact ⟨j, by omega, hbit⟩
    · exact ⟨w + j, by omega, by rw [show i + (w + j) = w + i + j by omega]; exact hbit⟩
  · rintro ⟨j, hj, hbit⟩
    by_cases hlow : j < w
    · exact .inl ⟨j, hlow, hbit⟩
    · exact .inr ⟨j - w, by omega, by rw [show w + i + (j - w) = i + j by omega]; exact hbit⟩

/-- All the bits below the highest one are set. -/
theorem Smeared.eq {x y : ℕ} (h : Smeared x 32 y) (hpos : x ≠ 0) (hx : x < 4294967296) :
    y = 2 ^ (x.log2 + 1) - 1 := by
  refine Nat.eq_of_testBit_eq fun i => ?_
  rw [Nat.testBit_two_pow_sub_one, Bool.eq_iff_iff, h i, decide_eq_true_iff]
  have hlog : x.log2 < 32 := (Nat.log2_lt hpos).mpr hx
  constructor
  · rintro ⟨j, -, hbit⟩
    have hge := Nat.ge_two_pow_of_testBit hbit
    have hle : i + j ≤ x.log2 := (Nat.le_log2 hpos).mpr hge
    omega
  · intro hi
    refine ⟨x.log2 - i, by omega, ?_⟩
    rw [show i + (x.log2 - i) = x.log2 by omega]
    exact Nat.testBit_log2 hpos

/-- The five steps of the rounding. -/
theorem smeared_steps (v : UInt32) :
    let v₁ := v ||| (v >>> 1)
    let v₂ := v₁ ||| (v₁ >>> 2)
    let v₃ := v₂ ||| (v₂ >>> 4)
    let v₄ := v₃ ||| (v₃ >>> 8)
    Smeared v.toNat 32 (v₄ ||| (v₄ >>> 16)).toNat := by
  have hstep : ∀ {w : ℕ} {y k : UInt32}, k.toNat % 32 = w → Smeared v.toNat w y.toNat →
      Smeared v.toNat (w + w) (y ||| (y >>> k)).toNat := by
    intro w y k hk h
    rw [UInt32.toNat_or, UInt32.toNat_shiftRight, hk]
    exact h.double
  intro v₁ v₂ v₃ v₄
  have h₁ : Smeared v.toNat 2 v₁.toNat := hstep rfl (smeared_self _)
  have h₂ : Smeared v.toNat 4 v₂.toNat := hstep rfl h₁
  have h₃ : Smeared v.toNat 8 v₃.toNat := hstep rfl h₂
  have h₄ : Smeared v.toNat 16 v₄.toNat := hstep rfl h₃
  exact hstep rfl h₄

theorem nextPow2_eq {v : UInt32} (h : 2 ≤ v.toNat) :
    (nextPow2 v).toNat = 2 ^ ((v.toNat - 1).log2 + 1) % 4294967296 := by
  have hone : (v - 1).toNat = v.toNat - 1 := by
    rw [UInt32.toNat_sub_of_le _ _ (UInt32.le_iff_toNat_le.mpr (Nat.le_trans (by decide) h))]
    rfl
  have hlt := v.toNat_lt
  have hsmeared := (smeared_steps (v - 1)).eq (by rw [hone]; omega) (by rw [hone]; omega)
  have hpos := Nat.two_pow_pos ((v.toNat - 1).log2 + 1)
  unfold nextPow2
  rw [if_neg (by rw [UInt32.lt_iff_toNat_lt]; exact Nat.not_lt.mpr h)]
  dsimp only at hsmeared ⊢
  rw [UInt32.toNat_add, hsmeared, hone, UInt32.toNat_one]
  congr 1
  omega

/-- Up to `2 ^ 31` the result is the least power of two that is at least `v`, from 2 on. -/
theorem nextPow2_spec {v : UInt32} (h : v.toNat ≤ 2147483648) :
    ∃ k, 1 ≤ k ∧ k ≤ 31 ∧ (nextPow2 v).toNat = 2 ^ k ∧ v.toNat ≤ 2 ^ k ∧
      ∀ j, 1 ≤ j → v.toNat ≤ 2 ^ j → k ≤ j := by
  by_cases hsmall : v.toNat < 2
  · refine ⟨1, le_refl 1, by decide, ?_, by omega, fun j hj _ => hj⟩
    unfold nextPow2
    rw [if_pos (UInt32.lt_iff_toNat_lt.mpr hsmall)]
    rfl
  · have hne : v.toNat - 1 ≠ 0 := by omega
    have hlog : (v.toNat - 1).log2 < 31 := (Nat.log2_lt hne).mpr (by omega)
    have hover : v.toNat - 1 < 2 ^ ((v.toNat - 1).log2 + 1) := Nat.lt_log2_self
    have hpow : 2 ^ ((v.toNat - 1).log2 + 1) ≤ 2 ^ 31 := Nat.pow_le_pow_right (by decide) hlog
    refine ⟨(v.toNat - 1).log2 + 1, by omega, by omega, ?_, by omega, fun j _ hj => ?_⟩
    · rw [nextPow2_eq (by omega)]
      exact Nat.mod_eq_of_lt (by omega)
    · exact (Nat.log2_lt hne).mpr (by omega)

/-- Above, 32 bits do not hold it. -/
theorem nextPow2_over {v : UInt32} (h : 2147483648 < v.toNat) : nextPow2 v = 0 := by
  have hne : v.toNat - 1 ≠ 0 := by omega
  have hlt := v.toNat_lt
  have hlog : (v.toNat - 1).log2 < 32 := (Nat.log2_lt hne).mpr (by omega)
  have hge : 31 ≤ (v.toNat - 1).log2 := (Nat.le_log2 hne).mpr (by omega)
  rw [← UInt32.toNat_inj, nextPow2_eq (by omega), show (v.toNat - 1).log2 = 31 by omega]
  rfl

/-! ## Indices -/

variable (r : MaskRing)

/-- How many cells are taken. -/
def readable : UInt32 := (r.head - r.tail) &&& r.mask

/-- Move the head over `n` cells. -/
def push (n : UInt32) : MaskRing := { r with head := (r.head + n) &&& r.mask }

/-- Move the tail over `n` cells. -/
def pop (n : UInt32) : MaskRing := { r with tail := (r.tail + n) &&& r.mask }

/-- The number of cells. -/
def cap : ℕ := r.mask.toNat + 1

/-- The size is a power of two, and the indices are below it. -/
structure Ok : Prop where
  size : ∃ k, 1 ≤ k ∧ k ≤ 31 ∧ r.cap = 2 ^ k
  head : r.head.toNat < r.cap
  tail : r.tail.toNat < r.cap

variable {r} {n : UInt32}

theorem Ok.and_mask (h : r.Ok) (x : UInt32) : (x &&& r.mask).toNat = x.toNat % r.cap := by
  obtain ⟨k, -, -, hk⟩ := h.size
  have hmask : r.mask.toNat = 2 ^ k - 1 := by
    unfold cap at hk
    omega
  rw [UInt32.toNat_and, hmask, Nat.and_two_pow_sub_one_eq_mod, hk]

theorem Ok.cap_dvd (h : r.Ok) : r.cap ∣ 4294967296 := by
  obtain ⟨k, -, hk, hcap⟩ := h.size
  rw [hcap]
  exact Nat.pow_dvd_pow 2 (show k ≤ 32 by omega)

/-- The cell after another. -/
theorem Ok.next (h : r.Ok) (pos : UInt32) : ((pos + 1) &&& r.mask).toNat = (pos.toNat + 1) % r.cap := by
  rw [h.and_mask, UInt32.toNat_add, Nat.mod_mod_of_dvd _ h.cap_dvd, UInt32.toNat_one]

theorem Ok.cap_two (h : r.Ok) : 2 ≤ r.cap := by
  obtain ⟨k, hk, -, hcap⟩ := h.size
  calc 2 = 2 ^ 1 := rfl
    _ ≤ 2 ^ k := Nat.pow_le_pow_right (by decide) hk
    _ = r.cap := hcap.symm

theorem Ok.readable_lt (h : r.Ok) : r.readable.toNat < r.cap := by
  have htwo := h.cap_two
  unfold readable
  rw [h.and_mask]
  exact Nat.mod_lt _ (by omega)

/-- The head is `readable` cells behind the tail. -/
theorem Ok.head_eq (h : r.Ok) : r.head.toNat = (r.tail.toNat + r.readable.toNat) % r.cap := by
  have hsum : r.head = r.tail + (r.head - r.tail) := by rw [UInt32.add_comm, UInt32.sub_add_cancel]
  unfold readable
  rw [h.and_mask, Nat.add_mod_mod]
  conv_lhs => rw [← Nat.mod_eq_of_lt h.head, hsum, UInt32.toNat_add, Nat.mod_mod_of_dvd _ h.cap_dvd]

/-- The number of taken cells is the distance of the indices. -/
theorem Ok.readable_of (h : r.Ok) {k : ℕ} (hk : k < r.cap)
    (heq : r.head.toNat = (r.tail.toNat + k) % r.cap) : r.readable.toNat = k := by
  have hlt := h.readable_lt
  have hhead := h.head_eq
  rcases Nat.lt_trichotomy r.readable.toNat k with hless | hsame | hmore
  · exact absurd (hhead.symm.trans heq) (WordRing.add_mod_ne hless hk)
  · exact hsame
  · exact absurd (heq.symm.trans hhead) (WordRing.add_mod_ne hmore hlt)

theorem Ok.push_head (h : r.Ok) (n : UInt32) :
    (r.push n).head.toNat = (r.tail.toNat + (r.readable.toNat + n.toNat)) % r.cap := by
  show ((r.head + n) &&& r.mask).toNat = _
  rw [h.and_mask, UInt32.toNat_add, Nat.mod_mod_of_dvd _ h.cap_dvd, h.head_eq, Nat.mod_add_mod, Nat.add_assoc]

theorem Ok.push (h : r.Ok) (n : UInt32) : (r.push n).Ok := by
  have htwo := h.cap_two
  refine ⟨h.size, ?_, h.tail⟩
  rw [h.push_head]
  exact Nat.mod_lt _ (by omega)

theorem Ok.pop (h : r.Ok) (n : UInt32) : (r.pop n).Ok := by
  have htwo := h.cap_two
  refine ⟨h.size, h.head, ?_⟩
  show ((r.tail + n) &&& r.mask).toNat < r.cap
  rw [h.and_mask]
  exact Nat.mod_lt _ (by omega)

/-- The tail after `n` cells. -/
theorem Ok.pop_tail (h : r.Ok) (n : UInt32) :
    (r.pop n).tail.toNat = (r.tail.toNat + n.toNat) % r.cap := by
  show ((r.tail + n) &&& r.mask).toNat = _
  rw [h.and_mask, UInt32.toNat_add, Nat.mod_mod_of_dvd _ h.cap_dvd]

theorem Ok.push_readable (h : r.Ok) (hroom : r.readable.toNat + n.toNat < r.cap) :
    (r.push n).readable.toNat = r.readable.toNat + n.toNat :=
  (h.push n).readable_of hroom (h.push_head n)

theorem Ok.pop_readable (h : r.Ok) (hn : n.toNat ≤ r.readable.toNat) :
    (r.pop n).readable.toNat = r.readable.toNat - n.toNat := by
  have hlt := h.readable_lt
  refine (h.pop n).readable_of (show _ < r.cap by omega) ?_
  show r.head.toNat = ((r.pop n).tail.toNat + _) % r.cap
  rw [h.pop_tail, Nat.mod_add_mod, h.head_eq]
  congr 1
  omega

/-- An index that is below the size is its own cell. -/
theorem Ok.masked_head (h : r.Ok) : r.head &&& r.mask = r.head := by
  rw [← UInt32.toNat_inj, h.and_mask, Nat.mod_eq_of_lt h.head]

theorem Ok.masked_tail (h : r.Ok) : r.tail &&& r.mask = r.tail := by
  rw [← UInt32.toNat_inj, h.and_mask, Nat.mod_eq_of_lt h.tail]

/-- The ring is full when all cells but one are taken. -/
theorem Ok.full_iff (h : r.Ok) :
    (r.head + 1) &&& r.mask = r.tail &&& r.mask ↔ r.readable.toNat + 1 = r.cap := by
  have hlt := h.readable_lt
  have hnext : ((r.head + 1) &&& r.mask).toNat = (r.tail.toNat + (r.readable.toNat + 1)) % r.cap :=
    h.push_head 1
  have hself : r.tail.toNat = (r.tail.toNat + 0) % r.cap := (Nat.mod_eq_of_lt h.tail).symm
  rw [h.masked_tail, ← UInt32.toNat_inj, hnext]
  constructor
  · intro heq
    by_contra hne
    exact WordRing.add_mod_ne (Nat.succ_pos _) (show r.readable.toNat + 1 < r.cap by omega)
      (hself.symm.trans heq.symm)
  · intro heq
    rw [heq, Nat.add_mod_right, Nat.mod_eq_of_lt h.tail]

theorem Ok.empty_iff (h : r.Ok) : r.tail &&& r.mask = r.head &&& r.mask ↔ r.readable.toNat = 0 := by
  have hlt := h.readable_lt
  have hself : r.tail.toNat = (r.tail.toNat + 0) % r.cap := (Nat.mod_eq_of_lt h.tail).symm
  rw [h.masked_tail, h.masked_head, ← UInt32.toNat_inj, h.head_eq]
  constructor
  · intro heq
    by_contra hne
    exact WordRing.add_mod_ne (Nat.pos_of_ne_zero hne) hlt (hself.symm.trans heq)
  · intro heq
    rw [heq]
    exact hself

/-! ## Contents -/

section Contents

variable {α : Type} {cells cells' : ℕ → α}

variable (r) in
/-- The queue the ring stands for, oldest first. -/
def contents (cells : ℕ → α) : List α :=
  (List.range r.readable.toNat).map fun i => cells ((r.tail.toNat + i) % r.cap)

@[simp] theorem contents_length : (r.contents cells).length = r.readable.toNat := by simp [contents]

theorem contents_getElem {i : ℕ} (hi : i < r.readable.toNat) :
    (r.contents cells)[i]? = some (cells ((r.tail.toNat + i) % r.cap)) := by
  unfold contents
  rw [List.getElem?_map, List.getElem?_range hi]
  rfl

/-- What happens to every cell alike. -/
theorem contents_map {β : Type} (cells : ℕ → α) (f : α → β) :
    (r.contents fun pos => f (cells pos)) = (r.contents cells).map f := by
  unfold contents
  rw [List.map_map]
  rfl

/-- The cells behind the head are free. -/
theorem Ok.free (h : r.Ok) {i s : ℕ} (hi : i < r.readable.toNat)
    (hs : r.readable.toNat + s < r.cap) :
    (r.tail.toNat + i) % r.cap ≠ (r.head.toNat + s) % r.cap := by
  rw [h.head_eq, Nat.mod_add_mod, Nat.add_assoc]
  exact WordRing.add_mod_ne (by omega) hs

/-- What is pushed comes last. -/
theorem Ok.contents_push (h : r.Ok) (hroom : r.readable.toNat + n.toNat < r.cap)
    (hkept : ∀ i < r.readable.toNat,
      cells' ((r.tail.toNat + i) % r.cap) = cells ((r.tail.toNat + i) % r.cap)) :
    (r.push n).contents cells' =
      r.contents cells ++ (List.range n.toNat).map fun s => cells' ((r.head.toNat + s) % r.cap) := by
  unfold contents
  rw [h.push_readable hroom, List.range_add, List.map_append, List.map_map]
  refine congrArg₂ _ (List.map_congr_left fun i hi => hkept i (List.mem_range.mp hi)) ?_
  refine List.map_congr_left fun s _ => congrArg cells' ?_
  show (r.tail.toNat + (r.readable.toNat + s)) % r.cap = _
  rw [h.head_eq, Nat.mod_add_mod, Nat.add_assoc]

/-- What is popped comes first. -/
theorem Ok.contents_pop (h : r.Ok) (hn : n.toNat ≤ r.readable.toNat) :
    (r.pop n).contents cells = (r.contents cells).drop n.toNat := by
  refine List.ext_getElem? fun i => ?_
  rw [List.getElem?_drop]
  by_cases hi : n.toNat + i < r.readable.toNat
  · have hpop := h.pop_readable hn
    rw [contents_getElem (by omega), contents_getElem hi, h.pop_tail]
    show some (cells (_ % r.cap)) = _
    rw [Nat.mod_add_mod, Nat.add_assoc]
  · have hpop := h.pop_readable hn
    rw [List.getElem?_eq_none (by rw [contents_length]; omega),
      List.getElem?_eq_none (by rw [contents_length]; omega)]

end Contents

/-! ## Everything that was put in -/

/-- The queue is what was put in, without the oldest that were taken out. -/
structure Ledger {α : Type} (put : List α) (taken : ℕ) (queue : List α) : Prop where
  le : taken ≤ put.length
  queue : queue = put.drop taken

namespace Ledger

variable {α : Type} {put queue : List α} {taken : ℕ}

theorem empty : Ledger ([] : List α) 0 [] := ⟨le_refl 0, rfl⟩

theorem length (h : Ledger put taken queue) : queue.length = put.length - taken := by
  rw [h.queue, List.length_drop]

theorem put_back (h : Ledger put taken queue) (new : List α) :
    Ledger (put ++ new) taken (queue ++ new) := by
  refine ⟨?_, ?_⟩
  · rw [List.length_append]
    exact Nat.le_add_right_of_le h.le
  · rw [h.queue, List.drop_append_of_le_length h.le]

theorem take_front (h : Ledger put taken queue) {n : ℕ} (hn : n ≤ queue.length) :
    Ledger put (taken + n) (queue.drop n) := by
  have hlen := h.length
  have hle := h.le
  refine ⟨by omega, ?_⟩
  rw [h.queue, List.drop_drop]

/-- What happens to every entry alike. -/
theorem map {β : Type} (h : Ledger put taken queue) (f : α → β) :
    Ledger (put.map f) taken (queue.map f) := by
  refine ⟨?_, ?_⟩
  · rw [List.length_map]
    exact h.le
  · rw [h.queue, List.map_drop]

/-- An entry of the queue, by its place among everything. -/
theorem getElem (h : Ledger put taken queue) (i : ℕ) : queue[i]? = put[taken + i]? := by
  rw [h.queue, List.getElem?_drop]

end Ledger

end MaskRing
