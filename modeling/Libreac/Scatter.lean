import Mathlib.Data.List.Nodup

/-!
# Scattering through a position map

A layout gives every index a position in a buffer. `scatter` writes one value per index, in the order
of a list of indices. Nested loops over a buffer are one scatter over the flat list of their indices
(`foldl_scatter`); a layout that covers the buffer rebuilds it from what was read
(`scatter_of_onto`).
-/

namespace Scatter

variable {ι β : Type}

/-- Write `v i` at `pos i` for each index in turn. -/
def scatter (pos : ι → ℕ) (v : ι → β) (is : List ι) (buf : List β) : List β :=
  is.foldl (fun buf i => buf.set (pos i) (v i)) buf

@[simp] theorem scatter_nil (pos : ι → ℕ) (v : ι → β) (buf : List β) :
    scatter pos v [] buf = buf := rfl

@[simp] theorem scatter_cons (pos : ι → ℕ) (v : ι → β) (i : ι) (is : List ι) (buf : List β) :
    scatter pos v (i :: is) buf = scatter pos v is (buf.set (pos i) (v i)) := rfl

theorem scatter_append (pos : ι → ℕ) (v : ι → β) (is js : List ι) (buf : List β) :
    scatter pos v (is ++ js) buf = scatter pos v js (scatter pos v is buf) :=
  List.foldl_append

/-- A loop whose body scatters is one scatter. -/
theorem foldl_scatter {α : Type} (pos : ι → ℕ) (v : ι → β) (js : List α) (f : α → List ι)
    (buf : List β) :
    js.foldl (fun buf j => scatter pos v (f j) buf) buf = scatter pos v (js.flatMap f) buf := by
  induction js generalizing buf with
  | nil => rfl
  | cons j js ih => rw [List.foldl_cons, List.flatMap_cons, scatter_append, ih]

@[simp] theorem scatter_length (pos : ι → ℕ) (v : ι → β) (is : List ι) (buf : List β) :
    (scatter pos v is buf).length = buf.length := by
  induction is generalizing buf with
  | nil => rfl
  | cons i is ih => rw [scatter_cons, ih, List.length_set]

/-- What no index points at is left as it was. -/
theorem getElem?_scatter_of_forall_ne {pos : ι → ℕ} {is : List ι} {p : ℕ} (v : ι → β) (buf : List β)
    (h : ∀ i ∈ is, pos i ≠ p) : (scatter pos v is buf)[p]? = buf[p]? := by
  induction is generalizing buf with
  | nil => rfl
  | cons i is ih =>
    rw [scatter_cons, ih _ fun j hj => h j (List.mem_cons_of_mem i hj)]
    exact List.getElem?_set_ne (h i (List.mem_cons_self ..))

/-- Where all writes to a position agree, it holds what they wrote. -/
theorem getElem?_scatter_of_agree {pos : ι → ℕ} {v : ι → β} {is : List ι} {p : ℕ} {b : β}
    {buf : List β} (hagree : ∀ i ∈ is, pos i = p → v i = b) (hmem : ∃ i ∈ is, pos i = p)
    (hp : p < buf.length) : (scatter pos v is buf)[p]? = some b := by
  induction is generalizing buf with
  | nil => exact absurd hmem (by simp)
  | cons i is ih =>
    rw [scatter_cons]
    by_cases hlater : ∃ j ∈ is, pos j = p
    · refine ih (fun j hj => hagree j (List.mem_cons_of_mem i hj)) hlater ?_
      rw [List.length_set]
      exact hp
    · have hi : pos i = p := by
        obtain ⟨j, hj, hjp⟩ := hmem
        rcases List.mem_cons.mp hj with rfl | hj
        · exact hjp
        · exact absurd ⟨j, hj, hjp⟩ hlater
      rw [getElem?_scatter_of_forall_ne v _ fun j hj hjp => hlater ⟨j, hj, hjp⟩, hi,
        hagree i (List.mem_cons_self ..) hi]
      exact List.getElem?_set_self hp

/-- Reading a written index gives back its value, when the layout keeps the indices apart. -/
theorem getElem?_scatter {pos : ι → ℕ} {v : ι → β} {is : List ι} {buf : List β}
    (hinj : ∀ i ∈ is, ∀ j ∈ is, pos i = pos j → i = j) {i : ι} (hi : i ∈ is)
    (hlt : pos i < buf.length) : (scatter pos v is buf)[pos i]? = some (v i) := by
  refine getElem?_scatter_of_agree ?_ ⟨i, hi, rfl⟩ hlt
  intro j hj hji
  rw [hinj j hj i hi hji]

/-- Where the layout covers the buffer, writing everything that was read rebuilds it. -/
theorem scatter_of_onto {pos : ι → ℕ} {v : ι → β} {is : List ι} {buf region : List β}
    (hlen : buf.length = region.length) (hv : ∀ i ∈ is, region[pos i]? = some (v i))
    (honto : ∀ p < region.length, ∃ i ∈ is, pos i = p) : scatter pos v is buf = region := by
  apply List.ext_getElem?
  intro p
  by_cases hp : p < region.length
  · rw [List.getElem?_eq_getElem hp]
    refine getElem?_scatter_of_agree ?_ (honto p hp) (hlen ▸ hp)
    intro i hi hip
    have hread := hv i hi
    rw [hip, List.getElem?_eq_getElem hp] at hread
    exact (Option.some.inj hread).symm
  · rw [List.getElem?_eq_none_iff.mpr (by rw [scatter_length]; omega),
      List.getElem?_eq_none_iff.mpr (by omega)]

/-! ## Blocks of one length -/

/-- A concatenation of blocks of one length, read at an offset of one block. -/
theorem getElem?_flatMap_range {g : ℕ → List β} {n len i k : ℕ}
    (hlen : ∀ j < n, (g j).length = len) (hi : i < n) (hk : k < len) :
    ((List.range n).flatMap g)[i * len + k]? = (g i)[k]? := by
  have htotal : ∀ m ≤ n, ((List.range m).flatMap g).length = m * len := by
    intro m hm
    induction m with
    | zero => simp
    | succ m ih =>
      rw [List.range_succ, List.flatMap_append, List.length_append, ih (by omega),
        List.flatMap_singleton, hlen m (by omega), Nat.succ_mul]
  have hsplit : List.range n = List.range (i + 1) ++ (List.range (n - (i + 1))).map (i + 1 + ·) := by
    rw [← List.range_add]
    congr 1
    omega
  have hrow := htotal i (by omega)
  rw [hsplit, List.flatMap_append, List.getElem?_append_left, List.range_succ, List.flatMap_append,
    List.getElem?_append_right (by omega), hrow, List.flatMap_singleton, Nat.add_sub_cancel_left]
  rw [htotal (i + 1) (by omega), Nat.succ_mul]
  omega

end Scatter
