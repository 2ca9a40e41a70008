import Mathlib.Data.List.GetD
import Libreac.Machine
import Libreac.Scatter
import Libreac.Proofs.CtrlProofs
import Libreac.Proofs.HeadampProofs

/-!
# The scene replay is the grant sweep

The grant sweep is built at once and the replay walks a cursor, one cell every twelve calls; both
visit the cells of the allocation in the order of `sceneCells`. A call that finds a changed cell sends
that one and leaves the cursor where it is, so only the quiet calls count.
-/

namespace Libreac

open Reactive (Machine Event)
open Scatter (getElem?_flatMap_range)

variable {t t' : HeadampTx} {a : GrantAlloc} {k : ℕ}

/-- The cells of an allocation: channel by channel, each with its three parameters. -/
def sceneCells (a : GrantAlloc) : List (ℕ × ℕ) :=
  (List.range a.width).flatMap fun c => (List.range headampNparams).map fun p => (a.base + c, p)

/-- The record of a cell, with the value the table gives it. -/
def cellRecord (tx : Option HeadampTx) (cell : ℕ × ℕ) : ℕ × ℕ × UInt8 :=
  (cell.1, cell.2, headampTxEffective tx cell.1 cell.2)

theorem getElem?_sceneCells (a : GrantAlloc) {i : ℕ} (h : i < a.width * headampNparams) :
    (sceneCells a)[i]? = some (a.base + i / headampNparams, i % headampNparams) := by
  have hpos : 0 < headampNparams := by decide
  have hdiv : i / headampNparams < a.width := by
    rw [Nat.div_lt_iff_lt_mul hpos]
    exact h
  have hmod := Nat.mod_lt i hpos
  have hblock := @getElem?_flatMap_range (ℕ × ℕ)
    (fun c => (List.range headampNparams).map fun p => (a.base + c, p)) a.width headampNparams
    (i / headampNparams) (i % headampNparams) (by simp) hdiv hmod
  rw [Nat.mul_comm, Nat.div_add_mod] at hblock
  rw [sceneCells, hblock]
  simp [hmod]

theorem length_sceneCells (a : GrantAlloc) : (sceneCells a).length = a.width * headampNparams := by
  simp [sceneCells, List.length_flatMap]

/-! ## The sweep -/

/-- A record of the sweep closes its own checksum. -/
theorem recordCksum_groupaRow (tx : Option HeadampTx) (ch param : ℕ) :
    recordCksumVerify (fun i => (groupaRow tx ch param).byte (18 + i)) 6 = true := by
  set tmpl := tmplHeadamp ch.toUInt8 param.toUInt8 (headampTxEffective tx ch param)
  have hhead : byteSum (fun i => (groupaRow tx ch param).byte (18 + i)) 5 =
      byteSum (fun i => tmpl.byte (18 + i)) 5 :=
    byteSum_congr fun i hi => byte_recordStamped tmpl (by omega)
  have hlast : (groupaRow tx ch param).byte (18 + 5) =
      (0x80 - (byteSum (fun i => tmpl.byte (18 + i)) 5 &&& 0x7f)) &&& 0x7f := by
    unfold groupaRow
    rw [byte_stampBlockCksum _ (by omega), byte_of_lt _ (by omega)]
    simp [recordCksumStamp, tmpl]
  unfold recordCksumVerify
  rw [beq_iff_eq, byteSum, hhead, hlast]
  exact sevenBit_closes _

/-- What the parser reads in a frame that carries a head-amp template. -/
theorem CarriesBlock.headamp {frame : List UInt8} {blk : Template} (h : CarriesBlock frame blk) :
    (ctrlParse frame).headamp = headampRecord blk := by
  have hkind := h.kind
  by_cases hrec : blk.kind = .headamp
  · obtain ⟨h0, h1, h2, h3, h16, h17, h18, h19⟩ := kind_headamp_iff.mp hrec
    obtain ⟨hch, hparam, hvalue⟩ := h.headamp_args hrec
    unfold CtrlParsed.headamp headampRecord
    rw [hkind, if_pos hrec, if_pos ⟨h0, h1, h2, h3, h16, h17, h18, h19⟩, hch, hparam, hvalue]
  · unfold CtrlParsed.headamp headampRecord
    rw [hkind, if_neg hrec, if_neg]
    intro hbytes
    exact hrec (kind_headamp_iff.mpr hbytes)

theorem filterMap_channelRows (tx : Option HeadampTx) {ch : ℕ} (h : ch < 256) :
    (channelRows tx ch).filterMap headampRecord =
      (List.range headampNparams).map fun p => cellRecord tx (ch, p) := by
  simp [channelRows, headampRecord_groupaRow, h, headampNparams, cellRecord,
    show List.range 3 = [0, 1, 2] from rfl]

/-- The records of a sweep are the cells of the allocation, in order. -/
theorem sweep_records (ha : 0 < a.width) {tx : Option HeadampTx} {rows : List Template}
    (h : grantBuildSweep a tx = some rows) :
    rows.filterMap headampRecord = (sceneCells a).map (cellRecord tx) := by
  have hfits := a.fits.2
  unfold headampCeiling at hfits
  have hfixed : headampRecord grantHeadAck = none ∧ headampRecord grantHeadMark = none ∧
      grantGroupb.filterMap headampRecord = [] := by decide
  have hrange : List.range a.width = 0 :: List.range' 1 (a.width - 1) := by
    obtain ⟨w, hw⟩ : ∃ w, a.width = w + 1 := ⟨a.width - 1, by omega⟩
    rw [hw, List.range_eq_range', List.range'_succ]
    rfl
  have hrest : ((List.range' 1 (a.width - 1)).flatMap fun c => channelRows tx (a.base + c)).filterMap
      headampRecord = (List.range' 1 (a.width - 1)).flatMap fun c =>
        (List.range headampNparams).map fun p => cellRecord tx (a.base + c, p) := by
    rw [List.filterMap_flatMap]
    refine List.flatMap_congr fun c hc => ?_
    rw [List.mem_range'_1] at hc
    exact filterMap_channelRows tx (by omega)
  rw [grantBuildSweep_eq ha] at h
  obtain rfl := Option.some.inj h
  simp only [List.filterMap_append, List.filterMap_cons, List.filterMap_nil, hfixed, hrest,
    filterMap_channelRows tx (show a.base < 256 by omega), List.nil_append, List.append_nil]
  rw [sceneCells, hrange, List.flatMap_cons, List.map_append, List.map_map, List.map_flatMap]
  rfl

/-- Every block of a sweep closes, and so does the record in it when it has one. -/
theorem sweep_closes (ha : 0 < a.width) {tx : Option HeadampTx} {rows : List Template}
    (h : grantBuildSweep a tx = some rows) {row : Template} (hrow : row ∈ rows) :
    row.cksumOk ∧ (headampRecord row ≠ none →
      recordCksumVerify (fun i => row.byte (18 + i)) 6 = true) := by
  have hfixed : ∀ r ∈ [grantHeadAck] ++ [grantHeadMark] ++ grantGroupb,
      r.cksumOk ∧ headampRecord r = none := by decide
  have hgroupa : ∀ ch, ∀ r ∈ channelRows tx ch, r.cksumOk ∧
      recordCksumVerify (fun i => r.byte (18 + i)) 6 = true := by
    intro ch r hr
    simp only [channelRows, List.mem_cons, List.not_mem_nil, or_false] at hr
    rcases hr with rfl | rfl | rfl
    all_goals exact ⟨stampBlockCksum_cksumOk _, recordCksum_groupaRow ..⟩
  rw [grantBuildSweep_eq ha] at h
  obtain rfl := Option.some.inj h
  by_cases hmem : row ∈ [grantHeadAck] ++ [grantHeadMark] ++ grantGroupb
  · obtain ⟨hck, hnone⟩ := hfixed row hmem
    exact ⟨hck, fun hne => absurd hnone hne⟩
  · obtain ⟨ch, hch⟩ : ∃ ch, row ∈ channelRows tx ch := by
      simp only [List.mem_append, List.mem_flatMap, not_or] at hrow hmem
      rcases hrow with (((hr | hr) | hr) | hr) | ⟨c, -, hr⟩
      · exact absurd hr hmem.1.1
      · exact ⟨a.base, hr⟩
      · exact absurd hr hmem.1.2
      · exact absurd hr hmem.2
      · exact ⟨a.base + c, hr⟩
    obtain ⟨hck, hrec⟩ := hgroupa ch row hch
    exact ⟨hck, fun _ => hrec⟩

/-! ## The replay -/

/-- The calls made on a table once the scene is armed. -/
inductive HeadampCall where
  | set (ch param : ℕ) (value : UInt8)
  | next
  deriving DecidableEq

/-- A table as a machine; a refused setting leaves it as it was. -/
def headampMachine : Machine HeadampTx HeadampCall (Option (ℕ × ℕ × UInt8)) where
  step t call :=
    match call with
    | .set ch param value => ((headampTxSet t ch param value).getD t, none)
    | .next => headampTxNext t

/-- No cell waits to be sent. -/
def HeadampTx.quiet (t : HeadampTx) : Bool :=
  (List.range (headampMaxCh * headampNparams)).all fun idx =>
    !t.dirty (idx / headampNparams) (idx % headampNparams)

/-- The calls so far that found no changed cell. -/
def quietCalls (log : List (Event HeadampTx HeadampCall (Option (ℕ × ℕ × UInt8)))) : ℕ :=
  log.countP fun e => e.input == .next && e.pre.quiet

theorem TableOk.quiet_iff (ok : TableOk t) : t.quiet = true ↔ ∀ c p, t.dirty c p = false := by
  unfold HeadampTx.quiet
  rw [List.all_eq_true]
  constructor
  · intro h c p
    by_contra hd
    rw [Bool.not_eq_false] at hd
    obtain ⟨hc, hp, -⟩ := ok.dirty c p hd
    unfold headampMaxCh at hc h
    unfold headampNparams at hp h
    have hcell := h (c * 3 + p) (List.mem_range.mpr (by omega))
    rw [show (c * 3 + p) / 3 = c by omega, show (c * 3 + p) % 3 = p by omega, hd] at hcell
    cases hcell
  · intro h idx _
    rw [h]
    rfl

/-- The table after `k` quiet calls: the cursor has gone one cell on for each stride begun. -/
structure ReplayAt (a : GrantAlloc) (k : ℕ) (t : HeadampTx) : Prop where
  ok : TableOk t
  running : (k + 11) / 12 < a.width * headampNparams → t.replayBase = a.base ∧
    t.replayWidth = a.width ∧ t.replayIdx = (k + 11) / 12 ∧ t.replayWait + k = 12 * ((k + 11) / 12)
  ended : a.width * headampNparams ≤ (k + 11) / 12 → t.replayWidth = 0

/-- What quiet call `k` sends: on every twelfth the next cell, while there is one. -/
def replaySlot (a : GrantAlloc) (k : ℕ) (t : HeadampTx) : Option (ℕ × ℕ × UInt8) :=
  if k % 12 = 0 then (sceneCells a)[k / 12]?.map (cellRecord (some t)) else none

theorem replaySlot_cell (hbase : t.replayBase = a.base) (hidx : t.replayIdx = (k + 11) / 12)
    (hk : k = 12 * ((k + 11) / 12)) (hrun : (k + 11) / 12 < a.width * headampNparams) :
    some (t.record t.replayCell) = replaySlot a k t := by
  have hdiv : k / 12 = (k + 11) / 12 := by omega
  unfold replaySlot
  rw [if_pos (by omega), hdiv, getElem?_sceneCells a hrun, Option.map_some, HeadampTx.replayCell, hbase,
    hidx]
  rfl

theorem replayAt_arm (ha : 0 < a.width) (hoff : t.resweepPeriod = 0)
    (hclean : ∀ c p, t.dirty c p = false) : ReplayAt a 0 (headampTxArmScene t a.base a.width) := by
  have hfits := a.fits.2
  rw [headampTxArmScene_alloc t ha]
  refine ⟨⟨?_, hoff, rfl, fun _ => ⟨?_, hfits⟩⟩, fun _ => ⟨rfl, rfl, rfl, rfl⟩, ?_⟩
  · intro c p hd
    rw [hclean c p] at hd
    cases hd
  · unfold headampNparams
    dsimp only
    omega
  · intro hle
    unfold headampNparams at hle
    omega

/-- Setting cells does not touch the cursor. -/
theorem ReplayAt.set (h : ReplayAt a k t) (ch param : ℕ) (value : UInt8) :
    ReplayAt a k ((headampTxSet t ch param value).getD t) := by
  cases hset : headampTxSet t ch param value with
  | none => exact h
  | some t' =>
    obtain ⟨hok, hcells⟩ := headampTxSet_spec h.ok hset
    rw [Option.getD_some]
    refine ⟨hok, ?_, ?_⟩
    · rw [hcells.base, hcells.width, hcells.idx, hcells.wait]
      exact h.running
    · rw [hcells.width]
      exact h.ended

/-- A changed cell goes first, and the cursor stays. -/
theorem ReplayAt.edge {rec : Option (ℕ × ℕ × UInt8)} (h : ReplayAt a k t) (hq : t.quiet = false)
    (hm : HeadampMove t t' rec) :
    ReplayAt a k t' ∧ ∃ cell, t.dirty cell.1 cell.2 = true ∧ rec = some (cellRecord (some t) cell) := by
  have hloud : ¬ ∀ c p, t.dirty c p = false := by
    intro hd
    rw [h.ok.quiet_iff.mpr hd] at hq
    cases hq
  have hok := hm.tableOk h.ok
  cases hm with
  | edge hd => exact ⟨⟨hok, h.running, h.ended⟩, _, hd, rfl⟩
  | silent hd | wait hd | cell hd | last hd => exact absurd hd hloud

/-- One quiet call. -/
theorem ReplayAt.next {rec : Option (ℕ × ℕ × UInt8)} (h : ReplayAt a k t) (hq : t.quiet = true)
    (hm : HeadampMove t t' rec) : ReplayAt a (k + 1) t' ∧ rec = replaySlot a k t := by
  have hquiet := h.ok.quiet_iff.mp hq
  have hrunning : t.replayWidth ≠ 0 → (k + 11) / 12 < a.width * headampNparams := by
    intro hw
    by_contra hover
    exact hw (h.ended (by omega))
  have hok := hm.tableOk h.ok
  cases hm with
  | edge hd =>
    rw [hquiet] at hd
    cases hd
  | silent _ hw =>
    -- A replay that has stopped is over: its width is not zero while it runs.
    have hover : a.width * headampNparams ≤ (k + 11) / 12 := by
      by_contra hrun
      obtain ⟨-, hwidth, -⟩ := h.running (by omega)
      rw [hw] at hwidth
      rw [← hwidth] at hrun
      omega
    refine ⟨⟨hok, fun hrun => by omega, fun _ => hw⟩, ?_⟩
    unfold replaySlot
    split_ifs with hk
    · rw [List.getElem?_eq_none_iff.mpr (by rw [length_sceneCells]; omega)]
      rfl
    · rfl
  | wait _ hw hwait =>
    obtain ⟨hbase, hwidth, hidx, hcount⟩ := h.running (hrunning hw)
    have hstride : (k + 1 + 11) / 12 = (k + 11) / 12 := by omega
    refine ⟨⟨hok, ?_, ?_⟩, ?_⟩
    · intro _
      rw [hstride]
      refine ⟨hbase, hwidth, hidx, ?_⟩
      dsimp only
      omega
    · intro hover
      have := hrunning hw
      omega
    · unfold replaySlot
      rw [if_neg (by omega)]
  | cell _ hw hwait hlt =>
    obtain ⟨hbase, hwidth, hidx, hcount⟩ := h.running (hrunning hw)
    rw [hwait] at hcount
    refine ⟨⟨hok, ?_, ?_⟩, ?_⟩
    · intro _
      refine ⟨hbase, hwidth, ?_, ?_⟩
      · dsimp only
        omega
      · dsimp only
        omega
    · intro hover
      rw [hwidth] at hlt
      omega
    · exact replaySlot_cell hbase hidx (by omega) (hrunning hw)
  | last _ hw hwait heq =>
    obtain ⟨hbase, hwidth, hidx, hcount⟩ := h.running (hrunning hw)
    rw [hwait] at hcount
    refine ⟨⟨hok, ?_, fun _ => rfl⟩, ?_⟩
    · intro hrun
      rw [hwidth] at heq
      omega
    · exact replaySlot_cell hbase hidx (by omega) (hrunning hw)

/-- At every call of a run the cursor stands where the quiet calls so far have brought it. -/
theorem replayAt_run (ha : 0 < a.width) (hoff : t.resweepPeriod = 0)
    (hclean : ∀ c p, t.dirty c p = false) {calls : List HeadampCall}
    {log : List (Event HeadampTx HeadampCall (Option (ℕ × ℕ × UInt8)))}
    {e : Event HeadampTx HeadampCall (Option (ℕ × ℕ × UInt8))}
    (he : headampMachine.StepOf (headampTxArmScene t a.base a.width) calls log e) :
    ReplayAt a (quietCalls log) e.pre ∧ e = headampMachine.event e.pre e.input := by
  refine Machine.trace_invariant_at (L := fun _ _ => True) headampMachine
    (H := fun log t => ReplayAt a (quietCalls log) t) (replayAt_arm ha hoff hclean) ?_
    (fun _ _ _ => trivial) he
  intro log t call h _
  have hcount : ∀ e, quietCalls (log ++ [e]) =
      quietCalls log + if e.input == .next && e.pre.quiet then 1 else 0 := by
    intro e
    simp [quietCalls, List.countP_append, List.countP_singleton]
  rw [hcount]
  cases call with
  | set ch param value => exact h.set ch param value
  | next =>
    have hmove := headampTxNext_move h.ok
    cases hq : t.quiet with
    | true =>
      rw [if_pos (by simpa using hq)]
      exact (h.next hq hmove).1
    | false =>
      rw [if_neg (by simpa using hq)]
      exact (h.edge hq hmove).1

theorem replaySlot_congr (h : ∀ c p, headampTxEffective (some t') c p = headampTxEffective (some t) c p) :
    replaySlot a k t' = replaySlot a k t := by
  have hrec : cellRecord (some t') = cellRecord (some t) := by
    funext cell
    unfold cellRecord
    rw [h]
  unfold replaySlot
  rw [hrec]

/-- Undisturbed, the replay is the scene of the table it was armed on. -/
theorem replay_outputs (h : ReplayAt a k t) (hclean : ∀ c p, t.dirty c p = false) (n : ℕ) :
    (headampMachine.trace t (List.replicate n .next)).map (·.out) =
      (List.range' k n).map fun k => replaySlot a k t := by
  induction n generalizing k t with
  | zero => rfl
  | succ n ih =>
    have hmove := headampTxNext_move h.ok
    obtain ⟨hnext, hout⟩ := h.next (h.ok.quiet_iff.mpr hclean) hmove
    have hslot : ∀ k, replaySlot a k (headampTxNext t).1 = replaySlot a k t :=
      fun k => replaySlot_congr hmove.effective
    rw [List.replicate_succ, Machine.trace_cons, List.map_cons, List.range'_succ, List.map_cons]
    congr 1
    refine (ih hnext (hmove.clean hclean)).trans ?_
    simp only [hslot]

/-- The cells of an allocation, each once. -/
theorem mem_sceneCells {a : GrantAlloc} {ch param : ℕ} :
    (ch, param) ∈ sceneCells a ↔ (a.base ≤ ch ∧ ch < a.base + a.width) ∧ param < headampNparams := by
  simp only [sceneCells, List.mem_flatMap, List.mem_map, List.mem_range, Prod.mk.injEq]
  constructor
  · rintro ⟨c, hc, p, hp, rfl, rfl⟩
    omega
  · rintro ⟨hch, hp⟩
    exact ⟨ch - a.base, by omega, param, hp, by omega, rfl⟩

theorem sceneCells_nodup (a : GrantAlloc) : (sceneCells a).Nodup := by
  rw [List.nodup_iff_getElem?_ne_getElem?]
  intro i j hij hj
  rw [length_sceneCells] at hj
  rw [getElem?_sceneCells a (by omega), getElem?_sceneCells a hj, Ne, Option.some.injEq, Prod.mk.injEq]
  unfold headampNparams
  omega

/-- The grant sweep and the replay armed after it are the same scene: every cell of the allocation
once, in order, with the value in effect. -/
theorem scene_replay_is_sweep {a : GrantAlloc} (hfit : grantAllocFits a.base a.width = true) :
    ((sceneCells a).Nodup ∧ ∀ ch param, (ch, param) ∈ sceneCells a ↔
      (a.base ≤ ch ∧ ch < a.base + a.width) ∧ param < headampNparams) ∧
    (∀ tx : Option HeadampTx, ∃ rows, grantBuildSweep a tx = some rows ∧
      rows.length = 8 + 3 * a.width ∧
      (∀ row ∈ rows, row.cksumOk ∧ (headampRecord row ≠ none →
        recordCksumVerify (fun i => row.byte (18 + i)) 6 = true)) ∧
      ∀ frame : List UInt8, 50 ≤ frame.length → byteAt frame 12 = 0x88 ∧ byteAt frame 13 = 0x19 →
        (rows.filterMap fun row => (ctrlParse (overwrite frame 16 row.toList)).headamp) =
          (sceneCells a).map (cellRecord tx)) ∧
    ∀ t : HeadampTx, t.resweepPeriod = 0 → (∀ c p, t.dirty c p = false) →
      (∀ n, (headampMachine.trace (headampTxArmScene t a.base a.width)
          (List.replicate n .next)).map (·.out) = (List.range n).map fun k => replaySlot a k t) ∧
      ∀ calls log e, headampMachine.StepOf (headampTxArmScene t a.base a.width) calls log e →
        e.input = .next →
        (e.pre.quiet = true → e.out = replaySlot a (quietCalls log) e.pre) ∧
        (e.pre.quiet = false → ∃ cell : ℕ × ℕ, e.pre.dirty cell.1 cell.2 = true ∧
          e.out = some (cellRecord (some e.pre) cell)) := by
  have ha : 0 < a.width := by
    have := grantAllocFits_iff.mp hfit
    omega
  refine ⟨⟨sceneCells_nodup a, fun _ _ => mem_sceneCells⟩, ?_, ?_⟩
  · intro tx
    refine ⟨_, grantBuildSweep_eq ha tx, ?_, ?_, ?_⟩
    · have hlen := (IsSweep.length ⟨tx, grantBuildSweep_eq ha tx⟩).1
      rw [hlen, grantSweepLen, Nat.mul_comm]
    · intro row hrow
      exact sweep_closes ha (grantBuildSweep_eq ha tx) hrow
    · intro frame hlong hetype
      rw [← sweep_records ha (grantBuildSweep_eq ha tx)]
      congr 1
      funext row
      exact (carriesBlock_overwrite hlong hetype row).headamp
  · intro t hoff hclean
    constructor
    · intro n
      have harm := replayAt_arm ha hoff hclean
      have hcells : ∀ c p, (headampTxArmScene t a.base a.width).dirty c p = false := by
        rw [headampTxArmScene_dirty]
        exact hclean
      rw [replay_outputs harm hcells, List.range_eq_range']
      simp only [replaySlot_congr (headampTxArmScene_effective t a.base a.width)]
    · intro calls log e he hnext
      obtain ⟨hat, heq⟩ := replayAt_run ha hoff hclean he
      have hout : e.out = (headampTxNext e.pre).2 := by
        rw [heq, hnext]
        rfl
      have hmove := headampTxNext_move hat.ok
      rw [hout]
      exact ⟨fun hq => (hat.next hq hmove).2, fun hq => (hat.edge hq hmove).2⟩

/-- A sixteen channel box strapped at 32. -/
theorem scene_replay_sixteen :
    (∃ rows, grantBuildSweep ⟨32, 16, by decide⟩ none = some rows ∧ rows.length = 8 + 3 * 16) ∧
    (headampMachine.trace (headampTxArmScene headampTxInit 32 16) (List.replicate 13 .next)).map (·.out)
      = (List.range 13).map fun k => replaySlot ⟨32, 16, by decide⟩ k headampTxInit := by
  obtain ⟨-, hsweep, hreplay⟩ := scene_replay_is_sweep (a := ⟨32, 16, by decide⟩) (by decide)
  obtain ⟨rows, hrows, hlen, -⟩ := hsweep none
  obtain ⟨hout, -⟩ := hreplay headampTxInit rfl fun _ _ => rfl
  exact ⟨⟨rows, hrows, hlen⟩, hout 13⟩

end Libreac
