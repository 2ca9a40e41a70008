import Mathlib.Logic.Function.Basic
import Mathlib.Data.Nat.Notation

/-!
# Rings with free-running word indices

A ring of `cap` cells with two 32-bit indices that are only ever incremented: the producer writes the
cell under `head` and then advances `head`, the consumer reads the cell under `tail` and then advances
`tail`. The indices wrap at `2 ^ 32`, and the cell of an index is the index modulo `cap`, so `cap` has
to divide `2 ^ 32`. `contents` is the queue the ring stands for, and each of the three memory
operations has one lemma about it.
-/

/-- The cells and the two indices of a ring. -/
structure WordRing (α : Type) where
  cells : ℕ → α
  head : UInt32 := 0
  tail : UInt32 := 0

namespace WordRing

variable {α : Type} (cap : ℕ) (r : WordRing α)

/-- How many cells are taken. -/
def count : ℕ := (r.head - r.tail).toNat

/-- The cell of an index. -/
def slot (i : UInt32) : ℕ := i.toNat % cap

/-- The queue the ring stands for, oldest first. -/
def contents : List α := (List.range r.count).map fun i => r.cells ((r.tail.toNat + i) % cap)

/-- Write the cell under `head`. -/
def store (a : α) : WordRing α := { r with cells := Function.update r.cells (slot cap r.head) a }

/-- Publish the cell under `head`. -/
def publish : WordRing α := { r with head := r.head + 1 }

/-- Give back the cell under `tail`. -/
def release : WordRing α := { r with tail := r.tail + 1 }

@[simp] theorem contents_length : (r.contents cap).length = r.count := by simp [contents]

@[simp] theorem count_store (a : α) : (r.store cap a).count = r.count := rfl

/-- The head is `count` cells after the tail, up to the wrap of the index. -/
theorem head_toNat : r.head.toNat = (r.tail.toNat + r.count) % 4294967296 := by
  have h := r.head.toNat_lt
  have t := r.tail.toNat_lt
  simp only [count, UInt32.toNat_sub]
  omega

variable {cap} {r}

theorem add_mod_ne {n i j : ℕ} (hij : i < j) (hj : j < cap) : (n + i) % cap ≠ (n + j) % cap := by
  intro h
  have hd : cap ∣ n + j - (n + i) := Nat.dvd_of_mod_eq_zero (Nat.sub_mod_eq_zero_of_mod_eq h.symm)
  have hzero : n + j - (n + i) = 0 := Nat.eq_zero_of_dvd_of_lt hd (by omega)
  omega

theorem store_head (a : α) : (r.store cap a).cells (slot cap r.head) = a :=
  Function.update_self ..

section Laws

variable (hdvd : cap ∣ 4294967296) (hcap : cap < 4294967296)

include hdvd

theorem slot_head : slot cap r.head = (r.tail.toNat + r.count) % cap := by
  rw [slot, head_toNat, Nat.mod_mod_of_dvd _ hdvd]

/-- The cell under `head` is free while the ring is not full. -/
theorem contents_store (hroom : r.count < cap) (a : α) :
    (r.store cap a).contents cap = r.contents cap := by
  unfold contents
  rw [count_store]
  refine List.map_congr_left fun i hi => ?_
  have hne : (r.tail.toNat + i) % cap ≠ slot cap r.head := by
    rw [slot_head hdvd]
    exact add_mod_ne (List.mem_range.mp hi) hroom
  exact Function.update_of_ne hne a r.cells

include hcap

omit hdvd in
theorem count_publish (hroom : r.count < cap) : r.publish.count = r.count + 1 := by
  have h := r.head.toNat_lt
  have t := r.tail.toNat_lt
  simp only [count, publish, UInt32.toNat_sub, UInt32.toNat_add, UInt32.toNat_one] at hroom ⊢
  omega

theorem contents_publish (hroom : r.count < cap) :
    r.publish.contents cap = r.contents cap ++ [r.cells (slot cap r.head)] := by
  unfold contents
  rw [count_publish hcap hroom, List.range_succ, List.map_append, List.map_singleton,
    slot_head hdvd]
  rfl

omit hcap

theorem contents_release (hne : r.head ≠ r.tail) :
    r.contents cap = r.cells (slot cap r.tail) :: r.release.contents cap := by
  have hcount : r.count = r.release.count + 1 := by
    have h := r.head.toNat_lt
    have t := r.tail.toNat_lt
    have hdiff : r.head.toNat ≠ r.tail.toNat := fun heq => hne (UInt32.toNat_inj.mp heq)
    simp only [count, release, UInt32.toNat_sub, UInt32.toNat_add, UInt32.toNat_one]
    omega
  unfold contents
  rw [hcount, List.range_succ_eq_map, List.map_cons, List.map_map]
  refine congrArg₂ _ rfl (List.map_congr_left fun i _ => ?_)
  have htail : (r.tail.toNat + (i + 1)) % cap = (r.release.tail.toNat + i) % cap := by
    have hmod : r.release.tail.toNat = (r.tail.toNat + 1) % 4294967296 := by
      simp [release, UInt32.toNat_add]
    rw [hmod, Nat.add_mod ((r.tail.toNat + 1) % 4294967296), Nat.mod_mod_of_dvd _ hdvd, ← Nat.add_mod]
    congr 1
    omega
  exact congrArg r.cells htail

end Laws

theorem count_eq_zero (r : WordRing α) : r.count = 0 ↔ r.head = r.tail := by
  have h := r.head.toNat_lt
  have t := r.tail.toNat_lt
  rw [← UInt32.toNat_inj]
  simp only [count, UInt32.toNat_sub]
  omega

end WordRing
