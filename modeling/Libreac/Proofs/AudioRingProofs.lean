import Mathlib
import Libreac.AudioRing

/-!
# Proofs: the audio ring never replays

A column is one sample of each channel. `columnsTaken` is what the writes of a run put in, with what each
later write leaves audible of the columns before it. The ring holds the columns that have not gone
(`AudioRingHeld`); the rows no write fills any more are silent, which is what keeps a wider source after
a narrow one from playing what an older one left.
-/

namespace Libreac

open Reactive (Event)

/-- One call of a run. -/
abbrev AudioRingEvent (α : Type) := Event (AudioRing α) (AudioRingInput α) (AudioRingOut α)

/-- Sample `s` of a write; `width` is the least width of that write and of those made since. -/
structure AudioColumn (α : Type) where
  block : CallerBlock α
  s : ℕ
  width : ℕ

section Specification

variable {α : Type} [Zero α]

/-- What channel `c` plays of a column. -/
def AudioColumn.sample (col : AudioColumn α) (c : ℕ) : α :=
  if c < col.width then col.block.planar (c * col.block.n.toNat + col.s) else 0

/-- A column after a write of another width. -/
def AudioColumn.narrow (width : ℕ) (col : AudioColumn α) : AudioColumn α :=
  { col with width := min col.width width }

/-- The first `w` columns of a block. -/
def CallerBlock.columns (block : CallerBlock α) (w : ℕ) : List (AudioColumn α) :=
  (List.range w).map fun s => ⟨block, s, block.channels.toNat⟩

/-- What a call makes of the columns that were put in before it. -/
def columnsAfter (cols : List (AudioColumn α)) (e : AudioRingEvent α) : List (AudioColumn α) :=
  match e.input, e.out with
  | .write block, .wrote w => cols.map (AudioColumn.narrow block.channels.toNat) ++ block.columns w.toNat
  | _, _ => cols

def columnsTaken (log : List (AudioRingEvent α)) : List (AudioColumn α) := log.foldl columnsAfter []

/-- How many columns a call took out. -/
def columnGone (e : AudioRingEvent α) : ℕ :=
  match e.out with
  | .read _ real => real.toNat
  | .trimmed drop => drop.toNat
  | .wrote _ => 0

def columnsGone (log : List (AudioRingEvent α)) : ℕ := (log.map columnGone).sum

/-- The columns that wait, oldest first. -/
def columnsWaiting (log : List (AudioRingEvent α)) : List (AudioColumn α) :=
  (columnsTaken log).drop (columnsGone log)

/-- The samples of a write that were not accepted. -/
def samplesRefused (e : AudioRingEvent α) : ℕ :=
  match e.input, e.out with
  | .write block, .wrote w => block.n.toNat - w.toNat
  | _, _ => 0

/-- The samples of a read that were filled with silence. -/
def samplesFilled (e : AudioRingEvent α) : ℕ :=
  match e.input, e.out with
  | .read _ n, .read _ real => n.toNat - real.toNat
  | _, _ => 0

/-- What a call returns, given the columns that wait. -/
def AudioCallExact (channels capacity : UInt32) (log : List (AudioRingEvent α)) (e : AudioRingEvent α) :
    Prop :=
  let waiting := columnsWaiting log
  match e.input with
  | .write block =>
    ∃ w, e.out = .wrote w ∧ w.toNat = min block.n.toNat (capacity.toNat - 1 - waiting.length)
  | .read nch n =>
    ∃ rows real, e.out = .read rows real ∧ real.toNat = min n.toNat waiting.length ∧
      rows.length = min nch.toNat channels.toNat ∧
      ∀ c, (hc : c < rows.length) → rows[c] =
        (waiting.take n.toNat).map (fun col => col.sample c) ++ List.replicate (n.toNat - waiting.length) 0
  | .trim keep => ∃ drop, e.out = .trimmed drop ∧ drop.toNat = waiting.length - keep.toNat

/-- What a run of calls leaves: the depth, the counters and what each of the calls returned. -/
structure AudioRingExact (channels capacityFrames : UInt32) (r₀ : AudioRing α)
    (is : List (AudioRingInput α)) : Prop where
  size : ∃ k, r₀.capacity.toNat = 2 ^ k ∧ capacityFrames.toNat ≤ 2 ^ k
  depth : let r := audioRingMachine.run r₀ is
    (ringReadable r).toNat = (columnsWaiting (audioRingMachine.trace r₀ is)).length ∧
      (ringReadable r).toNat + (ringWritable r).toNat = r₀.capacity.toNat - 1
  counts : let r := audioRingMachine.run r₀ is
    let log := audioRingMachine.trace r₀ is
    r.overruns = UInt64.ofNat (log.map samplesRefused).sum ∧
      r.underruns = UInt64.ofNat (log.map samplesFilled).sum ∧
      columnsGone log + (ringReadable r).toNat = (columnsTaken log).length
  calls : ∀ log e, audioRingMachine.StepOf r₀ is log e → AudioCallExact channels r₀.capacity log e

end Specification

/-! ## Rows -/

section Rows

variable {α : Type} {r : MaskRing} {row : List α} {pos : UInt32}

theorem writeRow_length (mask : UInt32) (row : List α) (pos : UInt32) (src : List α) :
    (writeRow mask row pos src).length = row.length := by
  induction src generalizing row pos with
  | nil => rfl
  | cons x src ih =>
    unfold writeRow
    rw [ih, List.length_set]

/-- A cell that is not written keeps its sample. -/
theorem writeRow_kept (h : r.Ok) {i : ℕ} {src : List α} (hpos : pos.toNat < r.cap)
    (hfree : ∀ s < src.length, i ≠ (pos.toNat + s) % r.cap) :
    (writeRow r.mask row pos src)[i]? = row[i]? := by
  induction src generalizing row pos with
  | nil => rfl
  | cons x src ih =>
    have htwo := h.cap_two
    have hfirst := hfree 0 (Nat.succ_pos _)
    rw [Nat.add_zero, Nat.mod_eq_of_lt hpos] at hfirst
    unfold writeRow
    rw [ih]
    · exact List.getElem?_set_ne (Ne.symm hfirst)
    · rw [h.next]
      exact Nat.mod_lt _ (by omega)
    · intro s hs
      have hrest := hfree (s + 1) (by rw [List.length_cons]; omega)
      rw [h.next, Nat.mod_add_mod, show pos.toNat + 1 + s = pos.toNat + (s + 1) by omega]
      exact hrest

/-- The cells that are written, as long as none is written twice. -/
theorem writeRow_new (h : r.Ok) {src : List α} (hrow : row.length = r.cap) (hpos : pos.toNat < r.cap)
    (hlen : src.length ≤ r.cap) {s : ℕ} (hs : s < src.length) :
    (writeRow r.mask row pos src)[(pos.toNat + s) % r.cap]? = src[s]? := by
  induction src generalizing row pos s with
  | nil => exact absurd hs (Nat.not_lt_zero s)
  | cons x src ih =>
    have htwo := h.cap_two
    have hnext : ((pos + 1) &&& r.mask).toNat < r.cap := by
      rw [h.next]
      exact Nat.mod_lt _ (by omega)
    rw [List.length_cons] at hlen hs
    unfold writeRow
    cases s with
    | zero =>
      rw [Nat.add_zero, Nat.mod_eq_of_lt hpos, writeRow_kept h hnext]
      · rw [List.getElem?_set_self (by omega), List.getElem?_cons_zero]
      · intro t ht
        have hne : (pos.toNat + 0) % r.cap ≠ (pos.toNat + (1 + t)) % r.cap :=
          WordRing.add_mod_ne (by omega) (by omega)
        rw [Nat.add_zero, Nat.mod_eq_of_lt hpos] at hne
        rw [h.next, Nat.mod_add_mod, Nat.add_assoc]
        exact hne
    | succ s =>
      have hrest := @ih (row.set pos.toNat x) _ (by rw [List.length_set]; exact hrow) hnext (by omega) s
        (show s < src.length by omega)
      rw [h.next, Nat.mod_add_mod, show pos.toNat + 1 + s = pos.toNat + (s + 1) by omega] at hrest
      rw [hrest, List.getElem?_cons_succ]

variable [Zero α]

theorem readRow_eq (h : r.Ok) (row : List α) (n : ℕ) (hpos : pos.toNat < r.cap) :
    readRow r.mask row pos n = (List.range n).map fun s => row.getD ((pos.toNat + s) % r.cap) 0 := by
  induction n generalizing pos with
  | zero => rfl
  | succ n ih =>
    have htwo := h.cap_two
    unfold readRow
    rw [ih (by rw [h.next]; exact Nat.mod_lt _ (by omega)), List.range_succ_eq_map, List.map_cons,
      List.map_map, Nat.add_zero, Nat.mod_eq_of_lt hpos]
    refine congrArg _ (List.map_congr_left fun s _ => ?_)
    rw [h.next, Nat.mod_add_mod, Function.comp_apply, show pos.toNat + 1 + s = pos.toNat + s.succ by omega]

end Rows

/-! ## The memory of the ring -/

section Memory

variable {α : Type} [Zero α]

/-- The samples in the cells of one position. -/
def AudioRing.column (r : AudioRing α) (pos c : ℕ) : α := (r.buf.getD c []).getD pos 0

/-- The rows from `wroteChannels` on are silent. -/
structure AudioRing.Ok (channels capacity : UInt32) (r : AudioRing α) : Prop where
  ring : r.ring.Ok
  cap : r.ring.cap = capacity.toNat
  size : r.capacity = capacity
  width : r.channels = channels
  wrote : r.wroteChannels.toNat ≤ channels.toNat
  rows : r.buf.length = channels.toNat
  row : ∀ row ∈ r.buf, row.length = capacity.toNat
  silent : ∀ c pos, r.wroteChannels.toNat ≤ c → r.column pos c = 0

variable {channels capacity : UInt32} {r : AudioRing α}

theorem column_outside (h : r.Ok channels capacity) {c : ℕ} (hc : channels.toNat ≤ c) (pos : ℕ) :
    r.column pos c = 0 := h.silent c pos (h.wrote.trans hc)

theorem column_row {c pos : ℕ} (hc : c < r.buf.length) : r.column pos c = (r.buf[c]).getD pos 0 := by
  unfold AudioRing.column
  rw [List.getD_eq_getElem _ _ hc]

theorem ringInit_ok {channels capacityFrames : UInt32} (h : ringInit channels capacityFrames = some r) :
    r.Ok channels r.capacity ∧ ringReadable r = 0 ∧ r.overruns = 0 ∧ r.underruns = 0 ∧
      ∃ k, r.capacity.toNat = 2 ^ k ∧ capacityFrames.toNat ≤ 2 ^ k := by
  unfold ringInit at h
  dsimp only at h
  split_ifs at h with hnone
  obtain ⟨-, hcap⟩ := not_or.mp hnone
  have hle : capacityFrames.toNat ≤ 2147483648 := by
    by_contra hover
    exact hcap (MaskRing.nextPow2_over (Nat.lt_of_not_le hover))
  obtain ⟨k, hk, hk', heq, hfits, -⟩ := MaskRing.nextPow2_spec hle
  obtain rfl := Option.some.inj h
  have hpos := Nat.two_pow_pos k
  have hmask : (MaskRing.nextPow2 capacityFrames - 1).toNat + 1 = (MaskRing.nextPow2 capacityFrames).toNat := by
    rw [UInt32.toNat_sub_of_le _ _ (UInt32.le_iff_toNat_le.mpr (by rw [heq]; exact hpos)), UInt32.toNat_one]
    omega
  refine ⟨⟨⟨⟨k, hk, hk', hmask.trans heq⟩, Nat.succ_pos _, Nat.succ_pos _⟩, hmask, rfl, rfl, Nat.zero_le _,
    List.length_replicate, ?_, ?_⟩, ?_, rfl, rfl, k, heq, hfits⟩
  · intro row hrow
    rw [List.eq_of_mem_replicate hrow, List.length_replicate]
  · intro c pos _
    unfold AudioRing.column
    dsimp only
    rw [List.getD_eq_getElem?_getD, List.getD_eq_getElem?_getD, List.getElem?_replicate]
    split_ifs with hc
    · rw [Option.getD_some, List.getElem?_replicate]
      split_ifs <;> rfl
    · rfl
  · show (0 - 0) &&& _ = (0 : UInt32)
    rw [UInt32.sub_self, UInt32.zero_and]

/-- The samples after every row went through `f`. -/
theorem column_mapIdx (f : ℕ → List α → List α) (h : r.Ok channels capacity) (r' : AudioRing α)
    (hbuf : r'.buf = r.buf.mapIdx f) (pos c : ℕ) :
    r'.column pos c = if c < channels.toNat then (f c (r.buf.getD c [])).getD pos 0 else 0 := by
  have hlen : (r.buf.mapIdx f).length = r.buf.length := List.length_mapIdx
  unfold AudioRing.column
  rw [hbuf, ← h.rows]
  split_ifs with hc
  · have hc' : c < (r.buf.mapIdx f).length := by omega
    rw [List.getD_eq_getElem _ _ hc', List.getElem_mapIdx, List.getD_eq_getElem _ _ hc]
  · have hc' : (r.buf.mapIdx f).length ≤ c := by omega
    rw [List.getD_eq_default _ _ hc']
    rfl

/-- Rows that keep their length make a buffer of the same shape. -/
theorem rows_mapIdx (f : ℕ → List α → List α) (h : r.Ok channels capacity)
    (hf : ∀ c row, row.length = capacity.toNat → (f c row).length = capacity.toNat) :
    (r.buf.mapIdx f).length = channels.toNat ∧ ∀ row ∈ r.buf.mapIdx f, row.length = capacity.toNat := by
  refine ⟨List.length_mapIdx.trans h.rows, ?_⟩
  intro row hrow
  obtain ⟨c, hc, rfl⟩ := List.mem_mapIdx.mp hrow
  exact hf c _ (h.row _ (List.getElem_mem hc))

/-- What clearing does to one row. -/
def AudioRing.cleared (r : AudioRing α) (srcChannels : UInt32) (c : ℕ) (row : List α) : List α :=
  if srcChannels.toNat ≤ c ∧ c < r.wroteChannels.toNat then List.replicate r.capacity.toNat 0 else row

/-- A narrower source clears, a wider one does not have to. -/
theorem narrow_column (h : r.Ok channels capacity) (srcChannels : UInt32) (pos c : ℕ) :
    (r.narrow srcChannels).column pos c = if c < srcChannels.toNat then r.column pos c else 0 := by
  by_cases hnarrow : srcChannels < r.wroteChannels
  · have hbuf : (r.narrow srcChannels).buf = r.buf.mapIdx (r.cleared srcChannels) := by
      unfold AudioRing.narrow
      rw [if_pos hnarrow]
      rfl
    rw [column_mapIdx _ h _ hbuf]
    unfold AudioRing.cleared
    split_ifs with hc hclear hkept hkept hkept
    · omega
    · rw [List.getD_eq_getElem?_getD, List.getElem?_replicate]
      split_ifs <;> rfl
    · rfl
    · exact h.silent c pos (by omega)
    · exact (column_outside h (Nat.le_of_not_lt hc) pos).symm
    · rfl
  · rw [UInt32.lt_iff_toNat_lt] at hnarrow
    have hbuf : (r.narrow srcChannels).buf = r.buf := by
      unfold AudioRing.narrow
      rw [if_neg (by rw [UInt32.lt_iff_toNat_lt]; exact hnarrow)]
    have hsame : (r.narrow srcChannels).column pos c = r.column pos c := by
      unfold AudioRing.column
      rw [hbuf]
    rw [hsame]
    split_ifs with hc
    · rfl
    · exact h.silent c pos (by omega)

theorem narrow_ok (h : r.Ok channels capacity) (srcChannels : UInt32)
    (hsrc : srcChannels.toNat ≤ channels.toNat) : (r.narrow srcChannels).Ok channels capacity := by
  have hrows : (r.narrow srcChannels).buf.length = channels.toNat ∧
      ∀ row ∈ (r.narrow srcChannels).buf, row.length = capacity.toNat := by
    unfold AudioRing.narrow
    dsimp only
    split_ifs with hnarrow
    · refine rows_mapIdx _ h fun c row hrow => ?_
      split_ifs
      · rw [List.length_replicate, h.size]
      · exact hrow
    · exact ⟨h.rows, h.row⟩
  have hrest : (r.narrow srcChannels).ring = r.ring ∧ (r.narrow srcChannels).capacity = r.capacity ∧
      (r.narrow srcChannels).channels = r.channels := by
    unfold AudioRing.narrow
    dsimp only
    split_ifs <;> exact ⟨rfl, rfl, rfl⟩
  obtain ⟨hring, hsize, hwidth⟩ := hrest
  refine ⟨?_, ?_, hsize.trans h.size, hwidth.trans h.width, hsrc, hrows.1, hrows.2, ?_⟩
  · rw [hring]
    exact h.ring
  · rw [hring]
    exact h.cap
  · intro c pos hc
    have hsilent : ¬ c < srcChannels.toNat := Nat.not_lt.mpr hc
    rw [narrow_column h, if_neg hsilent]

/-- What filling does to one row. -/
def AudioRing.filled (r : AudioRing α) (block : CallerBlock α) (srcChannels w : UInt32) (c : ℕ)
    (row : List α) : List α :=
  if c < srcChannels.toNat then
    writeRow r.ring.mask row r.ring.head
      ((List.range w.toNat).map fun s => block.planar (c * block.n.toNat + s))
  else row

omit [Zero α] in
theorem filled_length (r : AudioRing α) (block : CallerBlock α) (srcChannels w : UInt32) (c : ℕ)
    (row : List α) : (r.filled block srcChannels w c row).length = row.length := by
  unfold AudioRing.filled
  split_ifs
  · exact writeRow_length _ _ _ _
  · rfl

variable {block : CallerBlock α} {w : UInt32}

theorem fill_column (h : r.Ok channels capacity) (srcChannels w : UInt32) (pos c : ℕ) :
    (r.fill block srcChannels w).column pos c =
      if c < channels.toNat then (r.filled block srcChannels w c (r.buf.getD c [])).getD pos 0 else 0 :=
  column_mapIdx _ h _ rfl pos c

/-- The rows from the width of the source on are left as they are. -/
theorem fill_above (h : r.Ok channels capacity) {c : ℕ} (hc : r.wroteChannels.toNat ≤ c) (w : UInt32)
    (pos : ℕ) : (r.fill block r.wroteChannels w).column pos c = 0 := by
  rw [fill_column h]
  unfold AudioRing.filled
  rw [if_neg (Nat.not_lt.mpr hc)]
  split_ifs
  · exact h.silent c pos hc
  · rfl

theorem fill_ok (h : r.Ok channels capacity) (block : CallerBlock α) (w : UInt32) :
    (r.fill block r.wroteChannels w).Ok channels capacity := by
  have hrows := rows_mapIdx (r.filled block r.wroteChannels w) h fun c row hrow =>
    (filled_length r block r.wroteChannels w c row).trans hrow
  exact ⟨h.ring.push w, h.cap, h.size, h.width, h.wrote, hrows.1, hrows.2, fun c pos hc => fill_above h hc w pos⟩

/-- A cell that is taken keeps its samples. -/
theorem fill_kept (h : r.Ok channels capacity) {i : ℕ} (hi : i < r.ring.readable.toNat)
    (hroom : r.ring.readable.toNat + w.toNat < r.ring.cap) :
    (r.fill block r.wroteChannels w).column ((r.ring.tail.toNat + i) % r.ring.cap) =
      r.column ((r.ring.tail.toNat + i) % r.ring.cap) := by
  funext c
  by_cases hc : c < r.wroteChannels.toNat
  · have hwrote := h.wrote
    rw [fill_column h, if_pos (by omega)]
    unfold AudioRing.filled AudioRing.column
    rw [if_pos hc, List.getD_eq_getElem?_getD, writeRow_kept h.ring h.ring.head]
    · rw [← List.getD_eq_getElem?_getD]
    · intro s hs
      rw [List.length_map, List.length_range] at hs
      exact h.ring.free hi (by omega)
  · rw [fill_above h (Nat.le_of_not_lt hc), h.silent c _ (Nat.le_of_not_lt hc)]

/-- A new cell has the samples of the block. -/
theorem fill_new (h : r.Ok channels capacity) {s : ℕ} (hs : s < w.toNat)
    (hroom : r.ring.readable.toNat + w.toNat < r.ring.cap) (c : ℕ) :
    (r.fill block r.wroteChannels w).column ((r.ring.head.toNat + s) % r.ring.cap) c =
      if c < r.wroteChannels.toNat then block.planar (c * block.n.toNat + s) else 0 := by
  by_cases hc : c < r.wroteChannels.toNat
  · have hwrote := h.wrote
    have hbuf : c < r.buf.length := by
      rw [h.rows]
      omega
    have hrow : (r.buf.getD c []).length = r.ring.cap := by
      rw [List.getD_eq_getElem _ _ hbuf, h.row _ (List.getElem_mem hbuf), h.cap]
    rw [fill_column h, if_pos (by omega), if_pos hc]
    unfold AudioRing.filled
    rw [if_pos hc, List.getD_eq_getElem?_getD, writeRow_new h.ring hrow h.ring.head]
    · rw [List.getElem?_map, List.getElem?_range hs]
      rfl
    · rw [List.length_map, List.length_range]
      omega
    · rw [List.length_map, List.length_range]
      exact hs
  · rw [fill_above h (Nat.le_of_not_lt hc), if_neg hc]

/-- The new columns come last. -/
theorem fill_contents (h : r.Ok channels capacity) (block : CallerBlock α)
    (hroom : r.ring.readable.toNat + w.toNat < r.ring.cap) :
    (r.fill block r.wroteChannels w).ring.contents (r.fill block r.wroteChannels w).column =
      r.ring.contents r.column ++ (List.range w.toNat).map fun s c =>
        if c < r.wroteChannels.toNat then block.planar (c * block.n.toNat + s) else 0 := by
  have hpush := @MaskRing.Ok.contents_push r.ring w _ r.column (r.fill block r.wroteChannels w).column
    h.ring hroom fun i hi => fill_kept h hi hroom
  refine hpush.trans (congrArg _ (List.map_congr_left fun s hs => ?_))
  exact funext fun c => fill_new h (List.mem_range.mp hs) hroom c

end Memory

/-! ## A run -/

section Run

variable {α : Type} [Zero α] {channels capacity : UInt32} {log : List (AudioRingEvent α)} {r : AudioRing α}

omit [Zero α] in
theorem columnsTaken_concat (log : List (AudioRingEvent α)) (e : AudioRingEvent α) :
    columnsTaken (log ++ [e]) = columnsAfter (columnsTaken log) e := by
  unfold columnsTaken
  rw [List.foldl_append, List.foldl_cons, List.foldl_nil]

omit [Zero α] in
theorem columnsGone_concat (log : List (AudioRingEvent α)) (e : AudioRingEvent α) :
    columnsGone (log ++ [e]) = columnsGone log + columnGone e := by
  unfold columnsGone
  rw [List.map_append, List.sum_append, List.map_singleton, List.sum_singleton]

/-- A column as the rows of a ring hold it. -/
def AudioColumn.held (channels : UInt32) (col : AudioColumn α) (c : ℕ) : α :=
  if c < channels.toNat then col.sample c else 0

/-- Narrowing a column, as the ring does it to its rows. -/
theorem held_narrow {width src : ℕ} (hsrc : src = min width channels.toNat) (col : AudioColumn α) (c : ℕ) :
    (col.narrow width).held channels c = if c < src then col.held channels c else 0 := by
  unfold AudioColumn.held AudioColumn.sample AudioColumn.narrow
  dsimp only
  split_ifs <;> first | rfl | omega

/-- What the ring holds after the calls of `log`. -/
structure AudioRingHeld (channels capacity : UInt32) (log : List (AudioRingEvent α)) (r : AudioRing α) :
    Prop where
  ok : r.Ok channels capacity
  ledger : MaskRing.Ledger ((columnsTaken log).map (AudioColumn.held channels)) (columnsGone log)
    (r.ring.contents r.column)
  overruns : r.overruns = UInt64.ofNat (log.map samplesRefused).sum
  underruns : r.underruns = UInt64.ofNat (log.map samplesFilled).sum

theorem AudioRingHeld.init {capacityFrames : UInt32} (h : ringInit channels capacityFrames = some r) :
    AudioRingHeld channels r.capacity [] r := by
  obtain ⟨hok, hnone, hover, hunder, -⟩ := ringInit_ok h
  refine ⟨hok, ?_, hover, hunder⟩
  have hempty : r.ring.contents r.column = [] := by
    refine List.eq_nil_of_length_eq_zero (MaskRing.contents_length.trans ?_)
    show (ringReadable r).toNat = 0
    rw [hnone]
    rfl
  rw [hempty]
  exact .empty

theorem AudioRingHeld.waiting (h : AudioRingHeld channels capacity log r) :
    r.ring.contents r.column = (columnsWaiting log).map (AudioColumn.held channels) := by
  rw [h.ledger.queue, ← List.map_drop]
  rfl

theorem AudioRingHeld.depth (h : AudioRingHeld channels capacity log r) :
    (ringReadable r).toNat = (columnsWaiting log).length := by
  have hlen := congrArg List.length h.waiting
  rw [MaskRing.contents_length, List.length_map] at hlen
  exact hlen

/-- The depth and the room make up all the cells but one. -/
theorem AudioRing.Ok.room (h : r.Ok channels capacity) :
    (ringWritable r).toNat = capacity.toNat - 1 - (ringReadable r).toNat ∧
      (ringReadable r).toNat ≤ capacity.toNat - 1 := by
  have hlt : (ringReadable r).toNat < r.ring.cap := h.ring.readable_lt
  have hcap := h.cap
  have hmask : r.ring.mask.toNat = capacity.toNat - 1 := by
    unfold MaskRing.cap at hcap
    omega
  unfold ringWritable
  rw [UInt32.toNat_sub_of_le _ _ (UInt32.le_iff_toNat_le.mpr (by omega)), hmask]
  exact ⟨rfl, by omega⟩

/-- What a call does: the ring stays one, and returns what it should. -/
structure AudioCallKept (channels capacity : UInt32) (log : List (AudioRingEvent α)) (r : AudioRing α)
    (i : AudioRingInput α) : Prop where
  held : AudioRingHeld channels capacity (log ++ [audioRingMachine.event r i]) (audioRingMachine.step r i).1
  exact : AudioCallExact channels capacity log (audioRingMachine.event r i)

/-- A call, by its result, the change of the ledger and that of the counters. -/
theorem AudioRingHeld.kept {r' : AudioRing α} {i : AudioRingInput α} {out : AudioRingOut α}
    (h : AudioRingHeld channels capacity log r) (hstep : audioRingStep r i = (r', out))
    (hok : r'.Ok channels capacity)
    (hledger : MaskRing.Ledger
      ((columnsAfter (columnsTaken log) ⟨r, i, out, r'⟩).map (AudioColumn.held channels))
      (columnsGone log + columnGone ⟨r, i, out, r'⟩) (r'.ring.contents r'.column))
    (hover : r'.overruns = r.overruns + UInt64.ofNat (samplesRefused ⟨r, i, out, r'⟩))
    (hunder : r'.underruns = r.underruns + UInt64.ofNat (samplesFilled ⟨r, i, out, r'⟩))
    (hexact : AudioCallExact channels capacity log ⟨r, i, out, r'⟩) :
    AudioCallKept channels capacity log r i := by
  have hevent : audioRingMachine.event r i = ⟨r, i, out, r'⟩ := by
    unfold Reactive.Machine.event
    rw [audioRingMachine_step, hstep]
  have hsum : ∀ f : AudioRingEvent α → ℕ, ∀ e, UInt64.ofNat ((log ++ [e]).map f).sum =
      UInt64.ofNat (log.map f).sum + UInt64.ofNat (f e) := by
    intro f e
    rw [List.map_append, List.sum_append, List.map_singleton, List.sum_singleton, UInt64.ofNat_add]
  refine ⟨?_, ?_⟩
  · rw [hevent, audioRingMachine_step, hstep]
    refine ⟨hok, ?_, ?_, ?_⟩
    · rw [columnsTaken_concat, columnsGone_concat]
      exact hledger
    · rw [hover, hsum, h.overruns]
    · rw [hunder, hsum, h.underruns]
  · rw [hevent]
    exact hexact

/-! ### A write -/

@[simp] theorem narrow_ring (r : AudioRing α) (srcChannels : UInt32) :
    (r.narrow srcChannels).ring = r.ring := by
  unfold AudioRing.narrow
  dsimp only
  split_ifs <;> rfl

theorem narrow_counts (r : AudioRing α) (srcChannels : UInt32) :
    (r.narrow srcChannels).overruns = r.overruns ∧ (r.narrow srcChannels).underruns = r.underruns := by
  unfold AudioRing.narrow
  dsimp only
  split_ifs <;> exact ⟨rfl, rfl⟩

/-- The width of a source, as far as the ring has rows. -/
theorem clip_width (channels width : UInt32) :
    (if channels < width then channels else width).toNat = min width.toNat channels.toNat := by
  simp only [UInt32.lt_iff_toNat_lt]
  split_ifs <;> omega

variable {block : CallerBlock α} {srcChannels w : UInt32}

/-- A write of another width leaves what it should of the columns that wait. -/
theorem AudioRingHeld.narrowed (h : AudioRingHeld channels capacity log r)
    (hsrc : srcChannels.toNat = min block.channels.toNat channels.toNat) :
    MaskRing.Ledger
      (((columnsTaken log).map (AudioColumn.narrow block.channels.toNat)).map (AudioColumn.held channels))
      (columnsGone log) (r.ring.contents (r.narrow srcChannels).column) := by
  let cut : (ℕ → α) → ℕ → α := fun row c => if c < srcChannels.toNat then row c else 0
  have hcells : (r.narrow srcChannels).column = fun pos => cut (r.column pos) := by
    funext pos c
    exact narrow_column h.ok srcChannels pos c
  have hput : ((columnsTaken log).map (AudioColumn.narrow block.channels.toNat)).map
      (AudioColumn.held channels) = ((columnsTaken log).map (AudioColumn.held channels)).map cut := by
    rw [List.map_map, List.map_map]
    refine List.map_congr_left fun col _ => ?_
    funext c
    exact held_narrow hsrc col c
  rw [hcells, MaskRing.contents_map, hput]
  exact h.ledger.map cut

/-- What is accepted comes behind them. -/
theorem AudioRingHeld.wrote (h : AudioRingHeld channels capacity log r)
    (hsrc : srcChannels.toNat = min block.channels.toNat channels.toNat)
    (hroom : r.ring.readable.toNat + w.toNat < r.ring.cap) :
    MaskRing.Ledger
      (((columnsTaken log).map (AudioColumn.narrow block.channels.toNat) ++
        block.columns w.toNat).map (AudioColumn.held channels))
      (columnsGone log)
      (((r.narrow srcChannels).fill block srcChannels w).ring.contents
        ((r.narrow srcChannels).fill block srcChannels w).column) := by
  have hnarrow := narrow_ok h.ok srcChannels (by omega)
  have hcontents := fill_contents (w := w) hnarrow block (by rw [narrow_ring]; exact hroom)
  rw [narrow_ring] at hcontents
  have hnew : (block.columns w.toNat).map (AudioColumn.held channels) =
      (List.range w.toNat).map fun s c =>
        if c < srcChannels.toNat then block.planar (c * block.n.toNat + s) else 0 := by
    unfold CallerBlock.columns
    rw [List.map_map]
    refine List.map_congr_left fun s _ => ?_
    funext c
    show (if c < channels.toNat then
      if c < block.channels.toNat then block.planar (c * block.n.toNat + s) else 0 else 0) = _
    split_ifs <;> first | rfl | omega
  rw [List.map_append, hnew]
  refine Eq.subst (motive := MaskRing.Ledger _ _) hcontents.symm ?_
  exact (h.narrowed hsrc).put_back _

theorem audioRingStep_write
    (hsrc : (if r.channels < block.channels then r.channels else block.channels) = srcChannels) :
    audioRingStep r (.write block) =
      if ringWritable r < block.n then
        if ringWritable r = 0 then
          ({ r.narrow srcChannels with
            overruns := (r.narrow srcChannels).overruns + (block.n - ringWritable r).toUInt64 }, .wrote 0)
        else
          ({ (r.narrow srcChannels).fill block srcChannels (ringWritable r) with
            overruns := (r.narrow srcChannels).overruns + (block.n - ringWritable r).toUInt64 },
            .wrote (ringWritable r))
      else ((r.narrow srcChannels).fill block srcChannels block.n, .wrote block.n) := by
  have hwritable : ringWritable (r.narrow srcChannels) = ringWritable r := by
    unfold ringWritable ringReadable
    rw [narrow_ring]
  unfold audioRingStep ringWrite
  dsimp only
  rw [hsrc, hwritable]
  split_ifs <;> rfl

theorem sub_toUInt64 {a b : UInt32} (h : b ≤ a) : (a - b).toUInt64 = UInt64.ofNat (a.toNat - b.toNat) := by
  have ha := a.toNat_lt
  rw [← UInt64.toNat_inj, UInt32.toNat_toUInt64, UInt32.toNat_sub_of_le _ _ h, UInt64.toNat_ofNat']
  exact (Nat.mod_eq_of_lt (by omega)).symm

theorem AudioRingHeld.write (h : AudioRingHeld channels capacity log r) (block : CallerBlock α) :
    AudioCallKept channels capacity log r (.write block) := by
  have hdepth := h.depth
  obtain ⟨hfree, hle⟩ := h.ok.room
  have hcap := h.ok.cap
  have htwo := h.ok.ring.cap_two
  obtain ⟨srcChannels, hclip⟩ :
      ∃ src, (if r.channels < block.channels then r.channels else block.channels) = src := ⟨_, rfl⟩
  have hstep := audioRingStep_write hclip
  have hsrc : srcChannels.toNat = min block.channels.toNat channels.toNat := by
    rw [← hclip, clip_width, h.ok.width]
  have hnarrow := narrow_ok h.ok srcChannels (by omega)
  have hcounts := narrow_counts r srcChannels
  have hroom : ∀ w : UInt32, w.toNat ≤ (ringWritable r).toNat → r.ring.readable.toNat + w.toNat < r.ring.cap := by
    intro w hw
    show (ringReadable r).toNat + _ < _
    omega
  by_cases hover : ringWritable r < block.n
  · rw [if_pos hover] at hstep
    have hlt := UInt32.lt_iff_toNat_lt.mp hover
    have hrefused := sub_toUInt64 (UInt32.le_iff_toNat_le.mpr hlt.le)
    by_cases hnone : ringWritable r = 0
    · rw [if_pos hnone] at hstep
      have hzero : (ringWritable r).toNat = 0 := congrArg UInt32.toNat hnone
      refine h.kept hstep
        ⟨hnarrow.ring, hnarrow.cap, hnarrow.size, hnarrow.width, hnarrow.wrote, hnarrow.rows, hnarrow.row,
          hnarrow.silent⟩ ?_ ?_ ?_ ?_
      · show MaskRing.Ledger ((_ ++ []).map _) _ _
        rw [List.append_nil]
        have hnarrowed := h.narrowed hsrc
        rw [← narrow_ring r srcChannels] at hnarrowed
        exact hnarrowed
      · show (r.narrow srcChannels).overruns + _ = _
        rw [hcounts.1, hrefused, hzero]
        rfl
      · show (r.narrow srcChannels).underruns = _
        rw [hcounts.2]
        exact (UInt64.add_zero _).symm
      · refine ⟨0, rfl, ?_⟩
        show 0 = _
        omega
    · rw [if_neg hnone] at hstep
      have hfill := fill_ok hnarrow block (ringWritable r)
      refine h.kept hstep
        ⟨hfill.ring, hfill.cap, hfill.size, hfill.width, hfill.wrote, hfill.rows, hfill.row, hfill.silent⟩
        ?_ ?_ ?_ ?_
      · exact h.wrote hsrc (hroom _ (le_refl _))
      · show (r.narrow srcChannels).overruns + _ = _
        rw [hcounts.1, hrefused]
        rfl
      · show (r.narrow srcChannels).underruns = _
        rw [hcounts.2]
        exact (UInt64.add_zero _).symm
      · refine ⟨ringWritable r, rfl, ?_⟩
        omega
  · rw [if_neg hover] at hstep
    rw [UInt32.lt_iff_toNat_lt] at hover
    refine h.kept hstep (fill_ok hnarrow block block.n) ?_ ?_ ?_ ?_
    · exact h.wrote hsrc (hroom _ (Nat.le_of_not_lt hover))
    · show (r.narrow srcChannels).overruns = _ + UInt64.ofNat (block.n.toNat - block.n.toNat)
      rw [hcounts.1, Nat.sub_self]
      exact (UInt64.add_zero _).symm
    · show (r.narrow srcChannels).underruns = _
      rw [hcounts.2]
      exact (UInt64.add_zero _).symm
    · refine ⟨block.n, rfl, ?_⟩
      omega

/-! ### A read and a trim -/

theorem AudioRing.Ok.pop (h : r.Ok channels capacity) (n : UInt32) :
    AudioRing.Ok channels capacity { r with ring := r.ring.pop n } :=
  ⟨h.ring.pop n, h.cap, h.size, h.width, h.wrote, h.rows, h.row, h.silent⟩

/-- Taking the oldest `n` columns out. -/
theorem AudioRingHeld.ledger_pop {n : UInt32} (h : AudioRingHeld channels capacity log r)
    (hn : n.toNat ≤ (ringReadable r).toNat) :
    MaskRing.Ledger ((columnsTaken log).map (AudioColumn.held channels)) (columnsGone log + n.toNat)
      ((r.ring.pop n).contents r.column) := by
  rw [h.ok.ring.contents_pop hn]
  exact h.ledger.take_front (by rw [MaskRing.contents_length]; exact hn)

/-- A row of a read holds the samples of its channel, oldest first. -/
theorem AudioRingHeld.row (h : AudioRingHeld channels capacity log r) {c : ℕ} (hc : c < r.buf.length)
    {n real : ℕ} (hreal : real = min n (ringReadable r).toNat) :
    readRow r.ring.mask (r.buf[c]) r.ring.tail real =
      ((columnsWaiting log).take n).map fun col => col.sample c := by
  have hwidth : c < channels.toNat := by
    rw [← h.ok.rows]
    exact hc
  calc readRow r.ring.mask (r.buf[c]) r.ring.tail real
      = (List.range real).map fun s => r.column ((r.ring.tail.toNat + s) % r.ring.cap) c := by
        rw [readRow_eq h.ok.ring _ _ h.ok.ring.tail]
        exact List.map_congr_left fun s _ => (column_row hc).symm
    _ = ((r.ring.contents r.column).take n).map fun row => row c := by
        unfold MaskRing.contents
        rw [← List.map_take, List.take_range, List.map_map, hreal]
        rfl
    _ = ((columnsWaiting log).take n).map fun col => col.sample c := by
        rw [h.waiting, ← List.map_take, List.map_map]
        refine List.map_congr_left fun col _ => ?_
        exact if_pos hwidth

theorem audioRingStep_read (nch : UInt32) {n real : UInt32}
    (hreal : (if ringReadable r < n then ringReadable r else n) = real) :
    audioRingStep r (.read nch n) =
      ({ r with
        ring := r.ring.pop real
        underruns := if real < n then r.underruns + (n - real).toUInt64 else r.underruns },
        .read
          ((r.buf.take (if nch < r.channels then nch else r.channels).toNat).map fun row =>
            readRow r.ring.mask row r.ring.tail real.toNat ++ List.replicate (n - real).toNat 0) real) := by
  unfold audioRingStep ringReadPlanar
  dsimp only
  rw [hreal]
  split_ifs <;> rfl

theorem AudioRingHeld.read (h : AudioRingHeld channels capacity log r) (nch n : UInt32) :
    AudioCallKept channels capacity log r (.read nch n) := by
  have hdepth := h.depth
  obtain ⟨real, hclip⟩ : ∃ real, (if ringReadable r < n then ringReadable r else n) = real := ⟨_, rfl⟩
  have hreal : real.toNat = min n.toNat (ringReadable r).toNat := by
    rw [← hclip, clip_width]
  have hle : real ≤ n := UInt32.le_iff_toNat_le.mpr (by omega)
  have hshort : (n - real).toNat = n.toNat - (columnsWaiting log).length := by
    rw [UInt32.toNat_sub_of_le _ _ hle]
    omega
  have hnch : (if nch < r.channels then nch else r.channels).toNat = min nch.toNat channels.toNat := by
    rw [clip_width, h.ok.width, Nat.min_comm]
  have hstep := audioRingStep_read nch hclip
  generalize (if nch < r.channels then nch else r.channels) = rows at hnch hstep
  refine h.kept hstep ?_ ?_ ?_ ?_ ?_
  · have hpop := h.ok.pop real
    exact ⟨hpop.ring, hpop.cap, hpop.size, hpop.width, hpop.wrote, hpop.rows, hpop.row, hpop.silent⟩
  · exact h.ledger_pop (n := real) (by omega)
  · exact (UInt64.add_zero _).symm
  · show (if real < n then _ else _) = _ + UInt64.ofNat (n.toNat - real.toNat)
    rw [← sub_toUInt64 hle]
    split_ifs with hless
    · rfl
    · have hsame : n - real = 0 := by
        rw [← UInt32.toNat_inj, UInt32.toNat_sub_of_le _ _ hle]
        rw [UInt32.lt_iff_toNat_lt] at hless
        show n.toNat - real.toNat = 0
        omega
      rw [hsame]
      exact (UInt64.add_zero _).symm
  · have hlen := h.ok.rows
    refine ⟨_, real, rfl, by omega, ?_, ?_⟩
    · rw [List.length_map, List.length_take]
      omega
    · intro c hc
      rw [List.length_map, List.length_take] at hc
      rw [List.getElem_map, List.getElem_take, h.row (by omega) hreal, hshort]

theorem AudioRingHeld.trim (h : AudioRingHeld channels capacity log r) (keep : UInt32) :
    AudioCallKept channels capacity log r (.trim keep) := by
  have hdepth := h.depth
  by_cases hfew : ringReadable r ≤ keep
  · have hstep : audioRingStep r (.trim keep) = (r, .trimmed 0) := by
      unfold audioRingStep ringTrim
      dsimp only
      rw [if_pos hfew]
    rw [UInt32.le_iff_toNat_le] at hfew
    refine h.kept hstep h.ok h.ledger (UInt64.add_zero _).symm (UInt64.add_zero _).symm ⟨0, rfl, ?_⟩
    show 0 = _
    omega
  · have hstep : audioRingStep r (.trim keep) =
        ({ r with ring := r.ring.pop (ringReadable r - keep) }, .trimmed (ringReadable r - keep)) := by
      unfold audioRingStep ringTrim
      dsimp only
      rw [if_neg hfew]
    rw [UInt32.le_iff_toNat_le] at hfew
    have hdrop : (ringReadable r - keep).toNat = (ringReadable r).toNat - keep.toNat :=
      UInt32.toNat_sub_of_le _ _ (UInt32.le_iff_toNat_le.mpr (by omega))
    refine h.kept hstep (h.ok.pop _) (h.ledger_pop (by omega)) (UInt64.add_zero _).symm
      (UInt64.add_zero _).symm ⟨_, rfl, ?_⟩
    rw [hdrop, hdepth]

/-- One call keeps what is known of the ring, and returns what it should. -/
theorem AudioRingHeld.step (h : AudioRingHeld channels capacity log r) (i : AudioRingInput α) :
    AudioCallKept channels capacity log r i := by
  cases i with
  | write block => exact h.write block
  | read nch n => exact h.read nch n
  | trim keep => exact h.trim keep

/-- What is known of the ring after any run. -/
theorem AudioRingHeld.run (h : AudioRingHeld channels capacity [] r) (is : List (AudioRingInput α)) :
    AudioRingHeld channels capacity (audioRingMachine.trace r is) (audioRingMachine.run r is) := by
  induction is using List.reverseRecOn with
  | nil => exact h
  | append_singleton is i ih =>
    rw [audioRingMachine.run_concat, audioRingMachine.trace_concat]
    exact (ih.step i).held

end Run

variable {α : Type} [Zero α]

/-- No run of calls makes the ring play anything but what it took. -/
theorem audio_ring_exact {channels capacityFrames : UInt32} {r : AudioRing α}
    (h : ringInit channels capacityFrames = some r) (is : List (AudioRingInput α)) :
    AudioRingExact channels capacityFrames r is := by
  have hinit := AudioRingHeld.init h
  have hheld := hinit.run is
  have hdepth := hheld.depth
  obtain ⟨hfree, hle⟩ := hheld.ok.room
  have hlen := hheld.ledger.length
  have hgone := hheld.ledger.le
  rw [MaskRing.contents_length, List.length_map] at hlen
  rw [List.length_map] at hgone
  obtain ⟨-, -, -, -, hsize⟩ := ringInit_ok h
  refine ⟨hsize, ⟨hdepth, by omega⟩, ⟨hheld.overruns, hheld.underruns, ?_⟩, ?_⟩
  · show _ + (audioRingMachine.run r is).ring.readable.toNat = _
    omega
  · rintro log e ⟨post, he⟩
    obtain ⟨is₁, i, is₂, rfl, rfl, rfl⟩ := audioRingMachine.trace_split he
    exact ((hinit.run is₁).step i).exact

/-- Two channels, then one: the second row is silent from then on, also in the columns that wait. -/
theorem audio_ring_exact_narrow :
    ∃ r : AudioRing ℤ, ringInit 2 4 = some r ∧
      AudioRingExact 2 4 r [.write ⟨fun i => i + 1, 2, 2⟩, .write ⟨fun i => i + 7, 1, 1⟩, .read 2 4] :=
  ⟨_, rfl, audio_ring_exact rfl _⟩

end Libreac
