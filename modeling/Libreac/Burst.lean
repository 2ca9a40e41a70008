import Libreac.Master

/-!
# The scene burst in the source's own integers

`burst_slot` and `burst_index_at` of `reac_master.c` step by step, with every value put into the type
the source computes it in: `none` is a value that does not fit. `burstSlot` and `burstIndexAt` are
the same two functions over the integers.
-/

namespace Libreac

/-- The value of an expression of type `int`. -/
def asInt (x : ℤ) : Option ℤ := if -2147483648 ≤ x ∧ x < 2147483648 then some x else none

/-- The value of an expression of type `int64_t`. -/
def asInt64 (x : ℤ) : Option ℤ :=
  if -9223372036854775808 ≤ x ∧ x < 9223372036854775808 then some x else none

/-- `burst_slot`. -/
def burstSlotInt (fps k : ℤ) : Option ℤ := do
  let scaled ← asInt64 (k * fps)
  let rounded ← asInt64 (scaled + 250)
  let quotient ← asInt64 (rounded.tdiv 500)
  let s ← asInt quotient
  pure (if s < k then k else s)

/-- The loop of `burst_index_at` over the distances `ds` from the estimate `k`. -/
def burstSearch (fps pos k : ℤ) : List ℤ → Option ℤ
  | [] => some (-1)
  | d :: ds => do
    let c ← asInt (k + d)
    if 0 ≤ c ∧ c < sceneChunks then
      let s ← burstSlotInt fps c
      if s = pos then pure c else burstSearch fps pos k ds
    else burstSearch fps pos k ds

/-- `burst_index_at`. -/
def burstIndexAtInt (g : Geometry) (pos : ℤ) : Option ℤ :=
  if pos < 0 ∨ g.burstEnd < pos ∨ g.fps ≤ 0 then some (-1)
  else do
    let scaled ← asInt64 (pos * 500)
    let half ← asInt (g.fps.tdiv 2)
    let rounded ← asInt64 (scaled + half)
    let quotient ← asInt64 (rounded.tdiv g.fps)
    let k ← asInt quotient
    burstSearch g.fps pos (if pos < k then pos else k) [-1, 0, 1]

end Libreac
