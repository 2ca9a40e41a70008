import Libreac.Proofs.BurstProofs
import Libreac.Proofs.MasterProofs

/-!
# Proofs: the scene push

A transfer is opened by the header, runs through the 341 chunks of the burst in order and is closed
by the final chunk. The placement of the chunks is a rounded ratio, strictly increasing from 500
frames a second on, and `burstIndexAt` inverts it exactly; so the number of chunks already sent is
determined by the position in the cycle (`ChunkCursor`).

A grant waits for a whole transfer, and for a box that asked for it: a forward edge that comes too
early is parked, and only while PROBING.
-/

namespace Libreac

open Reactive (sinceLast sinceLast_concat fromLast fromLast_concat)

variable {t : MasterTunables} {tx : HeadampTx} {m : Master} {g : Geometry}

/-! ## The burst placement -/

/-- The slots of a cycle at 500 frames a second or more: the burst, the final chunk, the map and
the header, in this order. -/
structure BurstGeometry (g : Geometry) : Prop where
  fps : 500 ≤ g.fps
  burstEnd_eq : g.burstEnd = burstSlot g.fps 340
  tail_after : g.burstEnd < g.sub02Off
  tail_before : g.sub02Off < g.chanmapOff
  map_before : g.chanmapOff < g.sub01Off
  head_eq : g.sub01Off + 5 = g.cycleLen

theorem burstGeometry_geometry (t : MasterTunables) {fps : ℤ} (h : 500 ≤ fps) (hle : fps ≤ 1000000) :
    BurstGeometry (geometry t fps) := by
  have hend : burstSlot fps 340 = (340 * fps + 250) / 500 := by
    unfold burstSlot
    omega
  have hcycle : wrapInt (fps * 10778 / 4000) = fps * 10778 / 4000 := wrapInt_of_lt (by omega) (by omega)
  have hmap : wrapInt (fps * 5953 / 4000) = fps * 5953 / 4000 := wrapInt_of_lt (by omega) (by omega)
  have hhead : wrapInt (fps * 10778 / 4000 - 5) = fps * 10778 / 4000 - 5 :=
    wrapInt_of_lt (by omega) (by omega)
  have hstride : (wrapInt (fps + 250)).tdiv 500 = (fps + 250) / 500 := by
    rw [wrapInt_of_lt (by omega) (by omega), Int.tdiv_eq_ediv_of_nonneg (by omega)]
  refine ⟨h, rfl, ?_, ?_, ?_, ?_⟩ <;> simp only [geometry, sceneChunks, hcycle, hmap, hhead, hstride]
  · omega
  · norm_num only [hend]
    omega
  · omega
  · omega

theorem BurstGeometry.fps_pos (hg : BurstGeometry g) : 0 < g.fps := by
  have := hg.fps
  omega

/-! ## The cursor of the burst -/

/-- `n` chunks of the burst lie before position `pos`. -/
def ChunkCursor (g : Geometry) (pos : ℤ) (n : ℕ) : Prop :=
  n ≤ 341 ∧ (∀ k : ℕ, k < n → burstSlot g.fps k < pos) ∧ (n < 341 → pos ≤ burstSlot g.fps n)

theorem chunkCursor_zero : ChunkCursor g 0 0 := by
  refine ⟨by omega, fun k hk => by omega, fun _ => ?_⟩
  exact le_burstSlot _ _

/-- A chunk slot carries the next chunk. -/
theorem ChunkCursor.chunk (hg : BurstGeometry g) {pos k : ℤ} {n : ℕ} (h : ChunkCursor g pos n)
    (hk : burstIndexAt g pos = some k) : k.toNat = n ∧ ChunkCursor g (pos + 1) (n + 1) := by
  obtain ⟨-, -, hk0, hk1, hslot⟩ := burstIndexAt_sound hk
  obtain ⟨hn, hbelow, habove⟩ := h
  have hnk : (n : ℤ) = k := by
    rcases Int.lt_trichotomy k n with hlt | heq | hgt
    · have := hbelow k.toNat (by omega)
      rw [Int.toNat_of_nonneg hk0] at this
      omega
    · exact heq.symm
    · have := burstSlot_strictMono hg.fps_pos (Int.natCast_nonneg n) hgt
      have := habove (by omega)
      omega
  refine ⟨by omega, by omega, fun j hj => ?_, fun _ => ?_⟩
  · rcases Nat.lt_or_eq_of_le (Nat.le_of_lt_succ hj) with hj | rfl
    · have := hbelow j hj
      omega
    · rw [hnk]
      omega
  · have := burstSlot_strictMono hg.fps_pos (Int.natCast_nonneg n) (show (n : ℤ) < (n + 1 : ℕ) by omega)
    rw [hnk] at this
    omega

/-- Any other slot leaves the cursor where it is. -/
theorem ChunkCursor.skip (hg : BurstGeometry g) {pos : ℤ} {n : ℕ} (h : ChunkCursor g pos n)
    (hk : burstIndexAt g pos = none) : ChunkCursor g (pos + 1) n := by
  obtain ⟨hn, hbelow, habove⟩ := h
  refine ⟨hn, fun k hlt => ?_, fun hlt => ?_⟩
  · have := hbelow k hlt
    omega
  · have hne : burstSlot g.fps n ≠ pos := by
      rintro rfl
      exact burstIndexAt_complete hg.fps_pos hg.burstEnd_eq (Int.natCast_nonneg n) (by omega) hk
    have := habove hlt
    omega

/-- Behind the burst every chunk has been sent. -/
theorem ChunkCursor.full (hg : BurstGeometry g) {pos : ℤ} {n : ℕ} (h : ChunkCursor g pos n)
    (hpos : g.burstEnd < pos) : n = 341 := by
  obtain ⟨hn, -, habove⟩ := h
  by_contra hne
  have hle := habove (by omega)
  rw [hg.burstEnd_eq] at hpos
  rcases Nat.lt_or_eq_of_le (show n ≤ 340 by omega) with hlt | rfl
  · have := burstSlot_strictMono hg.fps_pos (Int.natCast_nonneg n) (show (n : ℤ) < 340 by omega)
    omega
  · push_cast at hle
    omega

/-! ## One slot of the hunt -/

/-- The chunks `1 … n`, as they go out. -/
def chunksTo (n : ℕ) : List (MasterEmit × ℕ) := (List.range' 1 n).map fun k => (.sceneChunk, k)

theorem chunksTo_succ (n : ℕ) : chunksTo (n + 1) = chunksTo n ++ [(.sceneChunk, 1 + n)] := by
  simp [chunksTo, List.range'_concat]

/-- A whole transfer: the header, the 341 chunks and the final. -/
def wholeTransfer : List (MasterEmit × ℕ) :=
  (.sceneHead, 0) :: chunksTo sceneChunks ++ [(.sceneTail, sceneSteps - 1)]

/-- The outcomes of one slot of the hunt cadence. -/
inductive HuntSlot (g : Geometry) (pos : ℤ) (c₀ : Cadence) : Cadence → Slot → Prop where
  | chunk {k : ℤ} (hk : burstIndexAt g pos = some k) :
      HuntSlot g pos c₀ { c₀ with sceneStep := 1 + k.toNat } (.plain .sceneChunk)
  | tail (hk : burstIndexAt g pos = none) (hp : pos = g.sub02Off) :
      HuntSlot g pos c₀ { c₀ with sceneStep := sceneSteps - 1 } (.plain .sceneTail)
  | head (hk : burstIndexAt g pos = none) (hp : pos = g.sub01Off) :
      HuntSlot g pos c₀ { c₀ with sceneStep := 0 } (.plain .sceneHead)
  | other (hk : burstIndexAt g pos = none) (h₂ : pos ≠ g.sub02Off)
      (h₁ : pos = g.chanmapOff ∨ pos ≠ g.sub01Off) {c : Cadence} (hc : c.cyclePos = c₀.cyclePos)
      {s : Slot} (hs : s.emit.isScene = false) : HuntSlot g pos c₀ c s

theorem huntCadence_slot (g : Geometry) (pos : ℤ) (c : Cadence) :
    HuntSlot g pos c (huntCadence g pos c).1 (huntCadence g pos c).2 := by
  unfold huntCadence
  split
  · rename_i k hk
    exact .chunk hk
  · rename_i hk
    split_ifs with h₂ hmap h₁ htick
    · exact .tail hk h₂
    · refine .other hk h₂ (.inl hmap) ?_ ?_ <;> rfl
    · exact .head hk h₁
    · refine .other hk h₂ (.inr h₁) ?_ ?_ <;> rfl
    · refine .other hk h₂ (.inr h₁) ?_ ?_ <;> rfl

/-- The position `pos` of the cycle lies inside a transfer that has sent `sent` since its header. -/
def InTransfer (g : Geometry) (pos : ℤ) (sent : List (MasterEmit × ℕ)) : Prop :=
  (g.sub01Off < pos ∧ pos < g.cycleLen ∧ sent = []) ∨
  (0 ≤ pos ∧ pos ≤ g.sub02Off ∧ ∃ n, ChunkCursor g pos n ∧ sent = chunksTo n)

/-- The step of the scene push a slot carries, if any. -/
def Slot.sceneStep (s : Slot) (step : ℕ) : Option (MasterEmit × ℕ) :=
  if s.emit.isScene then some (s.emit, step) else none

theorem Slot.sceneStep_none {s : Slot} (h : s.emit.isScene = false) (step : ℕ) :
    s.sceneStep step = none := by
  simp [Slot.sceneStep, h]

theorem ne_of_not_scene {e e' : MasterEmit} (h : e.isScene = false) (h' : e'.isScene = true) :
    e ≠ e' := by
  rintro rfl
  simp [h] at h'

/-- The header opens a transfer. -/
theorem InTransfer.open (hg : BurstGeometry g) :
    InTransfer g ((g.sub01Off + 1).tmod g.cycleLen) [] := by
  have := hg.head_eq
  have := hg.map_before
  have := hg.tail_before
  have := hg.tail_after
  have hend : 0 ≤ g.burstEnd := by
    rw [hg.burstEnd_eq]
    unfold burstSlot
    omega
  rw [Int.tmod_eq_of_lt (by omega) (by omega)]
  exact .inl ⟨by omega, by omega, rfl⟩

/-- A slot inside a transfer: the final chunk behind all the others, or the transfer goes on. -/
theorem InTransfer.slot (hg : BurstGeometry g) {pos : ℤ} {sent : List (MasterEmit × ℕ)}
    (h : InTransfer g pos sent) {c₀ c : Cadence} (hc₀ : c₀.cyclePos = (pos + 1).tmod g.cycleLen)
    {s : Slot} (hslot : HuntSlot g pos c₀ c s) :
    (s.emit = .sceneTail ∧ sent ++ (s.sceneStep c.sceneStep).toList
      = chunksTo sceneChunks ++ [(.sceneTail, sceneSteps - 1)]) ∨
    (s.emit ≠ .sceneTail ∧ s.emit ≠ .sceneHead ∧
      InTransfer g c.cyclePos (sent ++ (s.sceneStep c.sceneStep).toList)) := by
  have hhead := hg.head_eq
  have hmap := hg.map_before
  have hbefore := hg.tail_before
  have hafter := hg.tail_after
  rcases h with ⟨hlow, hhigh, rfl⟩ | ⟨hlow, hhigh, n, hn, rfl⟩
  · -- between the header and the end of the cycle nothing is sent
    cases hslot with
    | chunk hk =>
      have := burstIndexAt_sound hk
      omega
    | tail hk hp => omega
    | head hk hp => omega
    | other hk h₂ h₁ hc hs =>
      refine .inr ⟨ne_of_not_scene hs rfl, ne_of_not_scene hs rfl, ?_⟩
      rw [Slot.sceneStep_none hs, hc, hc₀]
      have hpos : 0 ≤ g.burstEnd := by
        rw [hg.burstEnd_eq]
        unfold burstSlot
        omega
      rcases eq_or_lt_of_le (show pos + 1 ≤ g.cycleLen by omega) with heq | hlt
      · rw [heq, Int.tmod_self]
        exact .inr ⟨le_refl _, by omega, 0, chunkCursor_zero, rfl⟩
      · rw [Int.tmod_eq_of_lt (by omega) hlt]
        exact .inl ⟨by omega, hlt, rfl⟩
  · -- inside the burst
    have hwrap : (pos + 1).tmod g.cycleLen = pos + 1 := Int.tmod_eq_of_lt (by omega) (by omega)
    cases hslot with
    | chunk hk =>
      obtain ⟨hkn, hcur⟩ := hn.chunk hg hk
      have hle := (burstIndexAt_sound hk).2.1
      refine .inr ⟨by simp [Slot.plain], by simp [Slot.plain], ?_⟩
      rw [show ({ c₀ with sceneStep := 1 + _ } : Cadence).cyclePos = pos + 1 from hc₀.trans hwrap]
      refine .inr ⟨by omega, by omega, n + 1, hcur, ?_⟩
      rw [chunksTo_succ, hkn]
      rfl
    | tail hk hp =>
      obtain rfl := hn.full hg (by omega)
      exact .inl ⟨rfl, rfl⟩
    | head hk hp => omega
    | other hk h₂ h₁ hc hs =>
      refine .inr ⟨ne_of_not_scene hs rfl, ne_of_not_scene hs rfl, ?_⟩
      rw [Slot.sceneStep_none hs, hc, hc₀, hwrap]
      refine .inr ⟨by omega, by omega, n, hn.skip hg hk, by simp⟩

/-! ## The state of the push -/

/-- `headSent` is what has been sent since the last header and `allSent` what has been sent since
the hunt began: a transfer in flight has sent what its position says, and a completed one is there
in full. A header sent in the very slot that loses the link leaves the cycle at the header slot. -/
def PushOk (m : Master) (headSent allSent : List (MasterEmit × ℕ)) : Prop :=
  (m.sceneInflight = true → m.cad.cyclePos = m.geo.sub01Off ∨
    (InTransfer m.geo m.cad.cyclePos headSent ∧ (.sceneHead, 0) :: headSent <:+ allSent)) ∧
  (0 < m.sceneComplete → wholeTransfer <:+: allSent)

theorem pushOk_fresh {headSent allSent : List (MasterEmit × ℕ)} (hi : m.sceneInflight = false)
    (hc : m.sceneComplete = 0) : PushOk m headSent allSent := by
  simp [PushOk, hi, hc]

theorem controlCadence_probing (hs : m.state = .probing) {c : Cadence} {s : Slot}
    (hc : controlCadence t m = (c, s)) :
    ∃ c₀ : Cadence, c₀.cyclePos = (m.cad.cyclePos + 1).tmod m.geo.cycleLen ∧
      HuntSlot m.geo m.cad.cyclePos c₀ c s := by
  have hslot := huntCadence_slot m.geo m.cad.cyclePos { m.cad with
    cyclePos := (m.cad.cyclePos + 1).tmod m.geo.cycleLen, announceTick := m.cad.announceTick + 1 }
  unfold controlCadence at hc
  simp only [hs, reduceCtorEq, if_false] at hc
  rw [hc] at hslot
  exact ⟨{ m.cad with
    cyclePos := (m.cad.cyclePos + 1).tmod m.geo.cycleLen, announceTick := m.cad.announceTick + 1 },
    rfl, hslot⟩

/-- The header slot sends the header. -/
theorem HuntSlot.at_head (hg : BurstGeometry g) {c₀ c : Cadence} {s : Slot}
    (h : HuntSlot g g.sub01Off c₀ c s) : s.emit = .sceneHead := by
  have := hg.tail_after
  have := hg.tail_before
  have := hg.map_before
  cases h with
  | chunk hk =>
    have := burstIndexAt_sound hk
    omega
  | tail hk hp => omega
  | head => rfl
  | other _ _ h₁ => omega

/-- The final chunk of a transfer in flight ends a whole transfer. -/
theorem PushOk.tail (hg : BurstGeometry m.geo) {headSent allSent : List (MasterEmit × ℕ)}
    (ok : PushOk m headSent allSent) {c₀ c : Cadence} {s : Slot}
    (hc₀ : c₀.cyclePos = (m.cad.cyclePos + 1).tmod m.geo.cycleLen)
    (hslot : HuntSlot m.geo m.cad.cyclePos c₀ c s) (htail : s.emit = .sceneTail)
    (hi : m.sceneInflight = true) :
    headSent ++ (s.sceneStep c.sceneStep).toList
      = chunksTo sceneChunks ++ [(.sceneTail, sceneSteps - 1)] ∧
    wholeTransfer <:+: allSent ++ (s.sceneStep c.sceneStep).toList := by
  rcases ok.1 hi with hpos | ⟨htr, hsuf⟩
  · rw [hpos] at hslot
    have := hslot.at_head hg
    simp [htail] at this
  · rcases htr.slot hg hc₀ hslot with ⟨-, hall⟩ | ⟨hne, -, -⟩
    · refine ⟨hall, List.IsSuffix.isInfix ?_⟩
      have heq : wholeTransfer = ((.sceneHead, 0) :: headSent) ++ (s.sceneStep c.sceneStep).toList := by
        rw [List.cons_append, hall]
        rfl
      rw [heq]
      obtain ⟨pre, rfl⟩ := hsuf
      exact ⟨pre, by simp⟩
    · exact absurd htail hne

/-- One slot of the hunt, with the accounting at its end. -/
theorem PushOk.hunt (tx : HeadampTx) (hg : BurstGeometry m.geo) (hs : m.state = .probing)
    {headSent allSent : List (MasterEmit × ℕ)} (ok : PushOk m headSent allSent)
    {c : Cadence} {s : Slot} (hc : controlCadence t m = (c, s)) (blk : Template) (desc : UInt8) :
    let m' := sceneAccount tx { m with cad := c, sceneBlk := blk, fillerDesc := desc } s.emit
    let step := (s.sceneStep c.sceneStep).toList
    m'.cad = c ∧
    PushOk m' (if s.emit = .sceneHead then [] else headSent ++ step) (allSent ++ step) ∧
    (m.sceneComplete < m'.sceneComplete → s.emit ≠ .sceneHead ∧
      headSent ++ step = chunksTo sceneChunks ++ [(.sceneTail, sceneSteps - 1)]) ∧
    (m'.state ≠ .probing → 0 < m'.sceneComplete ∧ m'.sceneInflight = false ∧
      m.joinHeld = true) := by
  obtain ⟨c₀, hc₀, hslot⟩ := controlCadence_probing hs hc
  have hmove := sceneAccount_move tx (m := { m with cad := c, sceneBlk := blk, fillerDesc := desc })
    s.emit (.inl hs)
  dsimp only
  generalize sceneAccount tx { m with cad := c, sceneBlk := blk, fillerDesc := desc } s.emit = m'
    at hmove
  have hcomplete : 0 < m.sceneComplete →
      wholeTransfer <:+: allSent ++ (s.sceneStep c.sceneStep).toList :=
    fun h => (ok.2 h).trans (List.prefix_append ..).isInfix
  cases hmove with
  | none h₁ h₂ =>
    refine ⟨rfl, ⟨fun hi => ?_, hcomplete⟩, fun h => absurd h (lt_irrefl _), fun h => absurd hs h⟩
    rw [if_neg h₁]
    rcases ok.1 hi with hpos | ⟨htr, hsuf⟩
    · rw [hpos] at hslot
      exact absurd (hslot.at_head hg) h₁
    · rcases htr.slot hg hc₀ hslot with ⟨htail, -⟩ | ⟨-, -, hgo⟩
      · exact absurd (hi.symm.trans (h₂ htail)) (by simp)
      · refine .inr ⟨hgo, ?_⟩
        obtain ⟨pre, rfl⟩ := hsuf
        exact ⟨pre, by simp⟩
  | opened h =>
    refine ⟨rfl, ⟨fun _ => .inr ?_, hcomplete⟩, fun h => absurd h (lt_irrefl _), fun h => absurd hs h⟩
    rw [if_pos h]
    cases hslot with
    | chunk | tail => cases h
    | other _ _ _ _ hn => exact absurd h (ne_of_not_scene hn rfl)
    | head _ hp =>
      refine ⟨?_, ⟨allSent, rfl⟩⟩
      dsimp only
      rw [hc₀, hp]
      exact .open hg
  | closed h hi hj =>
    obtain ⟨hall, hwhole⟩ := ok.tail hg hc₀ hslot h hi
    refine ⟨rfl, ⟨fun hi => (Bool.false_ne_true hi).elim, fun _ => hwhole⟩, fun _ => ⟨by simp [h], hall⟩,
      fun h => absurd hs h⟩
  | dropped h hi hj =>
    obtain ⟨hall, hwhole⟩ := ok.tail hg hc₀ hslot h hi
    refine ⟨rfl, ⟨fun hi => (Bool.false_ne_true hi).elim, fun _ => hwhole⟩, fun _ => ⟨by simp [h], hall⟩,
      fun h => absurd hs h⟩
  | released h hi hj =>
    obtain ⟨hall, hwhole⟩ := ok.tail hg hc₀ hslot h hi
    rename_i drop
    obtain ⟨rows, -, -, heq⟩ := enterGranting_eq tx { m with
      cad := c, sceneBlk := blk, fillerDesc := desc, sceneInflight := false
      sceneComplete := m.sceneComplete + 1, joinHeld := false, dropReason := drop } m.joinSrc
      (heldBlock m.joinEv m.joinHoldBlk)
    simp only [Master.completed] at heq ⊢
    rw [heq]
    exact ⟨rfl, ⟨fun hi => (Bool.false_ne_true hi).elim, fun _ => hwhole⟩, fun _ => ⟨by simp [h], hall⟩,
      fun _ => ⟨by simp, rfl, hj⟩⟩
  | bye h hj hest => simp [hs] at hest

/-! ## A hunt left alone -/

/-- `m'` differs from `m` only in what a slot of the hunt may touch. -/
def HuntsOn (m m' : Master) : Prop :=
  ∃ counter seen tick cad blk desc inflight complete, m' = { m with
    counter := counter, boxSeen := seen, presenceTick := tick, cad := cad, sceneBlk := blk
    fillerDesc := desc, sceneInflight := inflight, sceneComplete := complete }

theorem HuntsOn.trans {m₁ m₂ m₃ : Master} (h : HuntsOn m₁ m₂) (h' : HuntsOn m₂ m₃) :
    HuntsOn m₁ m₃ := by
  obtain ⟨_, _, _, _, _, _, _, _, rfl⟩ := h
  obtain ⟨_, _, _, _, _, _, _, _, rfl⟩ := h'
  exact ⟨_, _, _, _, _, _, _, _, rfl⟩

/-- A slot of the hunt, by its position: only the final chunk of a transfer in flight can end it. -/
theorem masterNext_hunt (t : MasterTunables) (tx : HeadampTx) (hg : BurstGeometry m.geo)
    (hs : m.state = .probing) :
    ∃ m₁, HuntsOn m m₁ ∧ m₁.cad.cyclePos = (m.cad.cyclePos + 1).tmod m.geo.cycleLen ∧
      m₁.sceneInflight = m.sceneInflight ∧ m₁.sceneComplete = m.sceneComplete ∧
      (masterNext t tx m).1 =
        if m.cad.cyclePos = m.geo.sub01Off then { m₁ with sceneInflight := true }
        else if m.cad.cyclePos = m.geo.sub02Off ∧ m.sceneInflight = true then
          if m.joinHeld = true then releaseHeldJoin tx m₁.completed else m₁.completed
        else m₁ := by
  have hmove := masterNext_move t tx m
  generalize (masterNext t tx m).1 = m', (masterNext t tx m).2 = s at hmove
  have hidle : m.state ≠ .idle := by
    rw [hs]
    decide
  have := hg.tail_after
  have := hg.tail_before
  have := hg.map_before
  cases hmove with
  | hunt h₀ hs₀ hc blk desc =>
    obtain ⟨seen, tick, rfl⟩ := h₀.of_ne_idle hidle
    obtain ⟨c₀, hc₀, hslot⟩ := controlCadence_probing hs₀ hc
    dsimp only at hc₀ hslot ⊢
    rename_i c
    refine ⟨{ m with
      counter := m.counter + 1, boxSeen := seen, presenceTick := tick, cad := c, sceneBlk := blk
      fillerDesc := desc }, ⟨_, _, _, _, _, _, _, _, rfl⟩, ?_, rfl, rfl, ?_⟩
    · cases hslot with
      | chunk | tail | head => exact hc₀
      | other _ _ _ hcyc => exact hcyc.trans hc₀
    · cases hslot with
      | chunk hk =>
        have := burstIndexAt_sound hk
        rw [if_neg (by omega), if_neg (by omega)]
        rfl
      | tail hk hp =>
        rw [if_neg (by omega)]
        cases hi : m.sceneInflight <;>
          simp [sceneAccount, Slot.plain, hp, Master.completed]
      | head hk hp =>
        rw [if_pos hp]
        rfl
      | other hk h₂ h₁ hcyc hn =>
        rw [if_neg (by omega), if_neg (by omega), sceneAccount_of_not_scene tx _ hn]
  | grant h₀ hs₀ | delivered h₀ hs₀ | wait h₀ hs₀ | boxUnknown h₀ hs₀ | locked h₀ hs₀
  | lost h₀ hs₀ =>
    obtain ⟨seen, tick, rfl⟩ := h₀.of_ne_idle hidle
    simp [hs] at hs₀

/-- The slots from the header to the one before the final chunk. -/
theorem push_slots (t : MasterTunables) (tx : HeadampTx) (hg : BurstGeometry m.geo)
    (hs : m.state = .probing) (hpos : m.cad.cyclePos = m.geo.sub01Off) {n : ℕ} (h₁ : 1 ≤ n)
    (hn : n ≤ m.geo.sub02Off + 5) :
    let m' := (masterMachine t).run m (List.replicate n (tx, .next))
    HuntsOn m m' ∧ m'.sceneInflight = true ∧ m'.sceneComplete = m.sceneComplete ∧
      m'.cad.cyclePos = if n < 5 then m.geo.sub01Off + n else n - 5 := by
  have hafter := hg.tail_after
  have hbefore := hg.tail_before
  have hmap := hg.map_before
  have hhead := hg.head_eq
  have hend : 0 ≤ m.geo.burstEnd := by
    rw [hg.burstEnd_eq]
    unfold burstSlot
    omega
  induction n with
  | zero => omega
  | succ n ih =>
    dsimp only at ih ⊢
    rw [List.replicate_succ', Reactive.Machine.run_append]
    rcases Nat.eq_zero_or_pos n with rfl | hpos'
    · -- the header
      obtain ⟨m₁, hon, hcyc, -, hcomp, hnext⟩ := masterNext_hunt t tx hg hs
      rw [if_pos hpos] at hnext
      have heq : (masterMachine t).run m [(tx, .next)] = { m₁ with sceneInflight := true } := hnext
      rw [List.replicate_zero, Reactive.Machine.run_nil, heq]
      refine ⟨hon.trans ⟨_, _, _, _, _, _, _, _, rfl⟩, rfl, hcomp, ?_⟩
      dsimp only
      rw [hcyc, hpos, Int.tmod_eq_of_lt (by omega) (by omega)]
      simp
    · obtain ⟨hon, hinf, hcomp, hcyc⟩ := ih hpos' (by omega)
      generalize (masterMachine t).run m (List.replicate n (tx, .next)) = m₀ at hon hinf hcomp hcyc
      have hgeo : m₀.geo = m.geo ∧ m₀.state = .probing := by
        obtain ⟨_, _, _, _, _, _, _, _, rfl⟩ := hon
        exact ⟨rfl, hs⟩
      obtain ⟨m₁, hon', hcyc', hinf', hcomp', hnext⟩ :=
        masterNext_hunt t tx (m := m₀) (by rw [hgeo.1]; exact hg) hgeo.2
      rw [hgeo.1] at hcyc' hnext
      rw [if_neg (by split_ifs at hcyc <;> omega), if_neg (by split_ifs at hcyc <;> omega)] at hnext
      have heq : (masterMachine t).run m₀ [(tx, .next)] = m₁ := hnext
      rw [heq]
      refine ⟨hon.trans hon', by rw [hinf', hinf], by rw [hcomp', hcomp], ?_⟩
      rw [hcyc', hcyc]
      -- Five slots behind the header the cycle wraps.
      rcases Nat.lt_trichotomy n 4 with hlt | rfl | hgt
      · rw [if_pos (by omega), if_pos (by omega), Int.tmod_eq_of_lt (by omega) (by omega)]
        push_cast
        omega
      · rw [if_pos (by omega), if_neg (by omega)]
        rw [show m.geo.sub01Off + (4 : ℕ) + 1 = m.geo.cycleLen by omega, Int.tmod_self]
        norm_num
      · rw [if_neg (by omega), if_neg (by omega), Int.tmod_eq_of_lt (by omega) (by omega)]
        push_cast
        omega

/-- A hunt that begins at the header has pushed the whole scene after `sub02Off + 6` slots, and then
releases the edge that is parked. -/
theorem push_completes (t : MasterTunables) (tx : HeadampTx) (hg : BurstGeometry m.geo)
    (hs : m.state = .probing) (hpos : m.cad.cyclePos = m.geo.sub01Off) :
    ∃ m₁, HuntsOn m m₁ ∧ m₁.sceneComplete = m.sceneComplete + 1 ∧ m₁.sceneInflight = false ∧
      (masterMachine t).run m (List.replicate (m.geo.sub02Off.toNat + 6) (tx, .next))
        = if m.joinHeld = true then releaseHeldJoin tx m₁ else m₁ := by
  have hafter := hg.tail_after
  have hbefore := hg.tail_before
  have hmap := hg.map_before
  have hend : 0 ≤ m.geo.burstEnd := by
    rw [hg.burstEnd_eq]
    unfold burstSlot
    omega
  obtain ⟨hon, hinf, hcomp, hcyc⟩ := push_slots t tx hg hs hpos (n := m.geo.sub02Off.toNat + 5)
    (by omega) (by omega)
  rw [if_neg (by omega)] at hcyc
  rw [show m.geo.sub02Off.toNat + 6 = m.geo.sub02Off.toNat + 5 + 1 from rfl, List.replicate_succ',
    Reactive.Machine.run_append]
  generalize (masterMachine t).run m (List.replicate (m.geo.sub02Off.toNat + 5) (tx, .next)) = m₀
    at hon hinf hcomp hcyc
  have hgeo : m₀.geo = m.geo ∧ m₀.state = .probing ∧ m₀.joinHeld = m.joinHeld := by
    obtain ⟨_, _, _, _, _, _, _, _, rfl⟩ := hon
    exact ⟨rfl, hs, rfl⟩
  obtain ⟨m₁, hon', -, -, hcomp', hnext⟩ :=
    masterNext_hunt t tx (m := m₀) (by rw [hgeo.1]; exact hg) hgeo.2.1
  rw [hgeo.1] at hnext
  rw [if_neg (by omega), if_pos ⟨by omega, hinf⟩, hgeo.2.2] at hnext
  refine ⟨m₁.completed, (hon.trans hon').trans ⟨_, _, _, _, _, _, _, _, rfl⟩, ?_, rfl, hnext⟩
  simp only [Master.completed, hcomp', hcomp]

/-! ## A fresh hunt -/

theorem Heard.freshHunt {m₁ : Master} (h : Heard m m₁) (hidle : m.state = .idle) :
    FreshHunt m₁ := by
  obtain ⟨seen, lc, rfl⟩ := h
  rw [started_of_idle hidle]
  obtain ⟨h₁, h₂, h₃, h₄, h₅⟩ := enterProbing_freshHunt m
  exact ⟨h₁, h₂, h₃, h₄, h₅⟩

theorem Ticked.freshHunt {m₀ : Master} (h : Ticked m m₀) (hidle : m.state = .idle) :
    FreshHunt m₀ := by
  obtain ⟨seen, tick, rfl⟩ := h
  rw [started_of_idle hidle]
  obtain ⟨h₁, h₂, h₃, h₄, h₅⟩ := enterProbing_freshHunt m
  exact ⟨h₁, h₂, h₃, h₄, h₅⟩

/-! ## Whole runs -/

/-- The step takes the master into PROBING. -/
def entersProbing (e : MasterEvent) : Bool := e.pre.state ≠ .probing ∧ e.post.state = .probing

/-- The step takes the master out of PROBING. A call on an IDLE master begins by promoting it, so it
counts as one that finds the master PROBING. -/
def leavesProbing (e : MasterEvent) : Prop :=
  e.post.state ≠ .probing ∧ (e.pre.state = .probing ∨ e.pre.state = .idle ∧ e.post.state ≠ .idle)

/-- The step feeds in a JOIN that carries a block, or a CONFIG. -/
def asksGrant (e : MasterEvent) : Bool :=
  match e.input.2 with
  | .rx .join _ blk => blk.isSome
  | .rx .config _ _ => true
  | _ => false

/-- The step of the scene push the slot carries, if any. -/
def sceneEmission (e : MasterEvent) : Option (MasterEmit × ℕ) :=
  e.out.bind fun s => s.sceneStep e.post.cad.sceneStep

/-- The steps of the scene push sent. -/
def sceneEmissions (log : List MasterEvent) : List (MasterEmit × ℕ) := log.filterMap sceneEmission

/-- The slot carries the header. -/
def sendsHead (e : MasterEvent) : Bool := e.out.any fun s => s.emit = .sceneHead

theorem sceneEmissions_concat (log : List MasterEvent) (e : MasterEvent) :
    sceneEmissions (log ++ [e]) = sceneEmissions log ++ (sceneEmission e).toList := by
  simp only [sceneEmissions, List.filterMap_append, List.filterMap_cons, List.filterMap_nil]
  cases sceneEmission e <;> rfl

theorem sceneEmissions_sinceLast (log : List MasterEvent) (e : MasterEvent) :
    sceneEmissions (sinceLast sendsHead (log ++ [e])) = if sendsHead e then [] else
      sceneEmissions (sinceLast sendsHead log) ++ (sceneEmission e).toList := by
  rw [sinceLast_concat]
  split_ifs
  · rfl
  · exact sceneEmissions_concat _ e

theorem sceneEmissions_fromLast (log : List MasterEvent) (e : MasterEvent) :
    sceneEmissions (fromLast entersProbing (log ++ [e]))
      = (if entersProbing e then [] else sceneEmissions (fromLast entersProbing log))
        ++ (sceneEmission e).toList := by
  rw [fromLast_concat]
  split_ifs
  · exact sceneEmissions_concat [] e
  · exact sceneEmissions_concat _ e

/-- The invariant of a run while PROBING. -/
structure SceneInv (log : List MasterEvent) (m : Master) : Prop where
  geo : BurstGeometry m.geo
  push : m.state = .probing → PushOk m (sceneEmissions (sinceLast sendsHead log))
    (sceneEmissions (fromLast entersProbing log))

/-- A call that sends nothing and leaves the push alone. -/
theorem SceneInv.quiet {log : List MasterEvent} {e : MasterEvent} (inv : SceneInv log e.pre)
    (hout : e.out = none) (hgeo : e.post.geo = e.pre.geo)
    (h : e.post.state = .probing → (e.post.sceneInflight = false ∧ e.post.sceneComplete = 0) ∨
      (e.pre.state = .probing ∧ e.post.sceneInflight = e.pre.sceneInflight ∧
        e.post.sceneComplete = e.pre.sceneComplete ∧
        e.post.cad.cyclePos = e.pre.cad.cyclePos)) : SceneInv (log ++ [e]) e.post := by
  refine ⟨by rw [hgeo]; exact inv.geo, fun hs => ?_⟩
  rcases h hs with ⟨hi, hc⟩ | ⟨hpre, hi, hc, hpos⟩
  · exact pushOk_fresh hi hc
  · have hnone : sceneEmission e = none := by simp [sceneEmission, hout]
    have hhead : sendsHead e = false := by simp [sendsHead, hout]
    have henter : entersProbing e = false := by simp [entersProbing, hpre]
    rw [sceneEmissions_sinceLast, sceneEmissions_fromLast, hnone, hhead, henter]
    simpa [PushOk, hi, hc, hpos, hgeo] using inv.push hpre

/-- What one frame does to the push. -/
theorem RxMove.push {m' : Master} {ev : RxEvent} {src : Mac} {blk : Option Block} {r : Bool}
    (h : RxMove tx m ev src blk m' r) (hs : m'.state = .probing) :
    (m'.sceneInflight = false ∧ m'.sceneComplete = 0) ∨
    (m.state = .probing ∧ m'.sceneInflight = m.sceneInflight ∧
      m'.sceneComplete = m.sceneComplete ∧ m'.cad.cyclePos = m.cad.cyclePos) := by
  have hheard : ∀ {m₁ : Master}, Heard m m₁ → m₁.state = .probing →
      (m₁.sceneInflight = false ∧ m₁.sceneComplete = 0) ∨
      (m.state = .probing ∧ m₁.sceneInflight = m.sceneInflight ∧
        m₁.sceneComplete = m.sceneComplete ∧ m₁.cad.cyclePos = m.cad.cyclePos) := by
    intro m₁ h₁ hs₁
    rcases h₁.cases with ⟨hidle, -⟩ | ⟨-, seen, lc, rfl⟩
    · exact .inl ⟨(h₁.freshHunt hidle).inflight, (h₁.freshHunt hidle).complete⟩
    · exact .inr ⟨hs₁, rfl, rfl, rfl⟩
  cases h with
  | refused => exact .inr ⟨hs, rfl, rfl, rfl⟩
  | stay _ h₁ => exact hheard h₁ hs
  | held h₁ hs₁ => simpa [holdJoin] using hheard h₁ hs₁
  | latch | relatch => simp [enterGranting_state] at hs
  | accept => cases hs
  | bye => exact .inl ⟨(enterProbing_freshHunt _).inflight, (enterProbing_freshHunt _).complete⟩

/-- A slot of the hunt, seen from the run. -/
theorem SceneInv.hunt {log : List MasterEvent} (inv : SceneInv log m)
    (hpre : m.state = .idle ∨ m.state = .probing) {e : MasterEvent} (hm : e.pre = m)
    {m₀ : Master} (h₀ : Ticked m m₀) {c : Cadence} {s : Slot} (hs : m₀.state = .probing)
    (hc : controlCadence t m₀ = (c, s)) (blk : Template) (desc : UInt8) (hout : e.out = some s)
    (hpost : e.post
      = sceneAccount tx { m₀ with cad := c, sceneBlk := blk, fillerDesc := desc } s.emit) :
    PushOk e.post (sceneEmissions (sinceLast sendsHead (log ++ [e])))
      (sceneEmissions (fromLast entersProbing (log ++ [e]))) ∧
    (m.sceneComplete < e.post.sceneComplete → sceneEmissions (sinceLast sendsHead (log ++ [e]))
      = chunksTo sceneChunks ++ [(.sceneTail, sceneSteps - 1)]) ∧
    (e.post.state ≠ .probing → 0 < e.post.sceneComplete ∧ e.post.sceneInflight = false) := by
  have hg : BurstGeometry m₀.geo := by rw [(Continues.ticked h₀).geo]; exact inv.geo
  -- What was sent since the hunt began: nothing, when it begins in this very slot.
  obtain ⟨all, ok, hall, hle⟩ : ∃ all, PushOk m₀ (sceneEmissions (sinceLast sendsHead log)) all ∧
      (if entersProbing e then [] else sceneEmissions (fromLast entersProbing log)) = all ∧
      m₀.sceneComplete ≤ m.sceneComplete := by
    rcases hpre with hidle | hprobing
    · have hfresh := h₀.freshHunt hidle
      obtain ⟨inflight, hacc⟩ := sceneAccount_of_not_inflight tx s.emit
        (m := { m₀ with cad := c, sceneBlk := blk, fillerDesc := desc }) hs hfresh.inflight
      refine ⟨[], pushOk_fresh hfresh.inflight hfresh.complete, ?_, by rw [hfresh.complete]; omega⟩
      have hst : e.post.state = .probing := by
        rw [hpost, hacc]
        exact hs
      simp [entersProbing, hm, hidle, hst]
    · obtain ⟨seen, tick, rfl⟩ := h₀.of_ne_idle (by rw [hprobing]; decide)
      exact ⟨_, inv.push hprobing, by simp [entersProbing, hm, hprobing], le_refl _⟩
  have hhead : sendsHead e = true ↔ s.emit = .sceneHead := by simp [sendsHead, hout]
  obtain ⟨hcad, hok, hinc, hleave⟩ := ok.hunt tx hg hs hc blk desc
  rw [← hpost] at hcad hok hinc hleave
  have hem : sceneEmission e = s.sceneStep c.sceneStep := by simp [sceneEmission, hout, hcad]
  rw [sceneEmissions_sinceLast, sceneEmissions_fromLast, hem, hall]
  simp only [hhead]
  refine ⟨hok, fun h => ?_, fun h => ⟨(hleave h).1, (hleave h).2.1⟩⟩
  obtain ⟨hne, hsent⟩ := hinc (by omega)
  rw [if_neg hne, hsent]

/-- A slot that ends PROBING, seen from the run. -/
theorem SceneInv.next {log : List MasterEvent} (inv : SceneInv log m) {e : MasterEvent} {s : Slot}
    (hm : e.pre = m) (hout : e.out = some s) (hmove : NextMove t tx m e.post s)
    (hs : e.post.state = .probing) :
    PushOk e.post (sceneEmissions (sinceLast sendsHead (log ++ [e])))
      (sceneEmissions (fromLast entersProbing (log ++ [e]))) := by
  generalize hpost : e.post = m' at hmove hs
  cases hmove with
  | hunt h₀ hs₀ hc blk desc =>
    have hok := (inv.hunt (h₀.probing_iff.mp hs₀) hm h₀ hs₀ hc blk desc hout hpost).1
    rwa [hpost] at hok
  | grant _ hs₀ => simp [hs₀] at hs
  | delivered => cases hs
  | wait _ hs₀ => simp [hs₀] at hs
  | boxUnknown =>
    exact pushOk_fresh (enterProbing_freshHunt _).inflight (enterProbing_freshHunt _).complete
  | locked h₀ hs₀ hc lc blk desc hlc hleft =>
    rename_i m₀ c
    have hacc := sceneAccount_move tx (m := { m₀ with
      cad := c, linkCheck := lc, sceneBlk := blk, fillerDesc := desc }) s.emit (.inr hs₀)
    generalize sceneAccount tx { m₀ with
      cad := c, linkCheck := lc, sceneBlk := blk, fillerDesc := desc } s.emit = m' at hacc hs
    cases hacc with
    | none | opened | closed | dropped => exact absurd (hs₀.symm.trans hs) (by decide)
    | released => simp [enterGranting_state] at hs
    | bye => exact pushOk_fresh (enterProbing_freshHunt _).inflight (enterProbing_freshHunt _).complete
  | lost =>
    -- A header in this slot opens a transfer that the next slot opens again.
    refine ⟨fun _ => .inl (enterProbing_freshHunt _).pos, fun h => ?_⟩
    dsimp only at h
    rw [(enterProbing_freshHunt _).complete] at h
    omega

theorem SceneInv.step {log : List MasterEvent} (inv : SceneInv log m) (i : HeadampTx × MasterInput)
    (hi : i.2 ≠ .regrant) :
    SceneInv (log ++ [(masterMachine t).event m i]) (masterStep t m i).1 := by
  have hgeo := (Continues.step t m i).geo
  obtain ⟨tx, i⟩ := i
  cases i with
  | rx ev src blk =>
    exact inv.quiet (e := (masterMachine t).event m (tx, .rx ev src blk)) rfl hgeo
      (masterRx_move tx m ev src blk).push
  | next =>
    refine ⟨by rw [hgeo]; exact inv.geo, fun hs => ?_⟩
    exact inv.next (e := (masterMachine t).event m (tx, .next)) rfl rfl (masterNext_move t tx m) hs
  | regrant => exact absurd rfl hi
  | setHeadampSrc present =>
    obtain ⟨rows, -, -, heq⟩ := masterSetHeadampSrc_eq tx m present
    refine inv.quiet (e := (masterMachine t).event m (tx, .setHeadampSrc present)) rfl hgeo ?_
    intro hs
    have hpost : ((masterMachine t).event m (tx, .setHeadampSrc present)).post = _ := heq
    rw [hpost] at hs ⊢
    exact .inr ⟨hs, rfl, rfl, rfl⟩
  | setBox inCh outCh base =>
    refine inv.quiet (e := (masterMachine t).event m (tx, .setBox inCh outCh base)) rfl hgeo ?_
    intro hs
    rcases masterSetBox_cases tx m inCh outCh base with h | ⟨a, rows, h, -⟩
    · have hpost : ((masterMachine t).event m (tx, .setBox inCh outCh base)).post = m := h
      rw [hpost] at hs ⊢
      exact .inr ⟨hs, rfl, rfl, rfl⟩
    · have hpost : ((masterMachine t).event m (tx, .setBox inCh outCh base)).post
        = m.declared a rows := h
      rw [hpost] at hs ⊢
      refine .inr ⟨hs, rfl, rfl, ?_⟩
      simp only [Master.declared]
      split_ifs <;> rfl

theorem sceneInv_init (t : MasterTunables) (placeholder : SceneBody) (src : Mac)
    (cfg : Option ConsoleCfg) (fps : ℤ) (h : 500 ≤ fps) (hle : fps ≤ 1000000) :
    SceneInv [] (masterInit t placeholder src cfg fps) := by
  obtain ⟨blk, desc, heq⟩ := masterInit_eq t placeholder src cfg fps
  rw [heq]
  refine ⟨?_, by simp⟩
  rw [initFps, if_pos (by omega)]
  exact burstGeometry_geometry t h hle

/-- A frame completes no transfer, and takes the master out of PROBING only if it asks for a grant
and the box has the whole scene. -/
theorem RxMove.leaves {m' : Master} {ev : RxEvent} {src : Mac} {blk : Option Block} {r : Bool}
    (h : RxMove tx m ev src blk m' r) (hpre : m.state = .idle ∨ m.state = .probing) :
    m'.sceneComplete ≤ m.sceneComplete ∧
    (m'.state = m.state ∨ m'.state = .probing ∨ (Forward ev blk ∧ m.state = .probing ∧
      m.sceneTransferReady = true ∧ m'.sceneComplete = m.sceneComplete ∧
      m'.sceneInflight = m.sceneInflight)) := by
  have hheard : ∀ {m₁ : Master}, Heard m m₁ →
      m₁.state = .probing ∧ m₁.sceneComplete ≤ m.sceneComplete := by
    intro m₁ h₁
    rcases h₁.cases with ⟨hidle, hs⟩ | ⟨hne, seen, lc, rfl⟩
    · exact ⟨hs, by rw [(h₁.freshHunt hidle).complete]; omega⟩
    · exact ⟨hpre.resolve_left hne, le_refl _⟩
  cases h with
  | refused => exact ⟨le_refl _, .inl rfl⟩
  | stay _ h₁ => exact ⟨(hheard h₁).2, .inr (.inl (hheard h₁).1)⟩
  | held h₁ => exact ⟨(hheard h₁).2, .inr (.inl (hheard h₁).1)⟩
  | latch h₁ hs hf hr =>
    rename_i m₁
    obtain ⟨rows, -, -, heq⟩ := enterGranting_eq tx m₁ src (heldBlock ev blk)
    rw [heq]
    refine ⟨(hheard h₁).2, .inr (.inr ?_)⟩
    rcases h₁.cases with ⟨hidle, -⟩ | ⟨-, seen, lc, rfl⟩
    · simp [Master.sceneTransferReady, (h₁.freshHunt hidle).complete] at hr
    · exact ⟨hf, hs, hr, rfl, rfl⟩
  | relatch h₁ hs | bye _ h₁ hs => simp [(hheard h₁).1] at hs
  | accept _ h₁ hs => simp [(hheard h₁).1] at hs

/-- What a step out of a hunt shows of the push. -/
theorem SceneInv.shows {log : List MasterEvent} (inv : SceneInv log m) (i : HeadampTx × MasterInput)
    (hi : i.2 ≠ .regrant) (hpre : m.state = .idle ∨ m.state = .probing) {e : MasterEvent}
    (he : e = (masterMachine t).event m i) :
    (m.sceneComplete < e.post.sceneComplete → sceneEmissions (sinceLast sendsHead (log ++ [e]))
      = chunksTo sceneChunks ++ [(.sceneTail, sceneSteps - 1)]) ∧
    (e.post.state = .granting → 0 < e.post.sceneComplete ∧ e.post.sceneInflight = false ∧
      wholeTransfer <:+: sceneEmissions (fromLast entersProbing (log ++ [e]))) := by
  obtain ⟨tx, i⟩ := i
  cases i with
  | rx ev src blk =>
    obtain ⟨hle, hleave⟩ := (masterRx_move tx m ev src blk).leaves hpre
    have hpost : e.post = (masterRx tx m ev src blk).1 := by rw [he]; rfl
    have hnone : sceneEmission e = none := by rw [he]; rfl
    rw [← hpost] at hle hleave
    refine ⟨fun h => by omega, fun hs => ?_⟩
    obtain ⟨-, hprobing, hready, hc, hinf⟩ : Forward ev blk ∧ _ := by
      rcases hleave with h | h | h
      · rw [hs] at h
        rcases hpre with h' | h' <;> simp [h'] at h
      · simp [hs] at h
      · exact h
    simp only [Master.sceneTransferReady, decide_eq_true_eq] at hready
    have henter : entersProbing e = false := by simp [entersProbing, hs]
    rw [sceneEmissions_fromLast, hnone, henter, hc, hinf]
    exact ⟨hready.1, hready.2, by simpa using (inv.push hprobing).2 hready.1⟩
  | next =>
    have hmove : NextMove t tx m e.post (masterNext t tx m).2 := by
      rw [he]
      exact masterNext_move t tx m
    have hout : e.out = some (masterNext t tx m).2 := by rw [he]; rfl
    generalize (masterNext t tx m).2 = s at hmove hout
    generalize hpost : e.post = m' at hmove
    have hticked : ∀ {m₀ : Master}, Ticked m m₀ → m₀.state = .probing := by
      intro m₀ h₀
      exact h₀.probing_iff.mpr hpre
    cases hmove with
    | hunt h₀ hs₀ hc blk desc =>
      obtain ⟨hok, hinc, hleave⟩ := inv.hunt hpre (by rw [he]; rfl) h₀ hs₀ hc blk desc hout hpost
      rw [hpost] at hok hinc hleave
      refine ⟨hinc, fun hs => ?_⟩
      obtain ⟨hcomp, hinf⟩ := hleave (by simp [hs])
      exact ⟨hcomp, hinf, hok.2 hcomp⟩
    | grant h₀ hs₀ | delivered h₀ hs₀ | wait h₀ hs₀ | boxUnknown h₀ hs₀ | locked h₀ hs₀
    | lost h₀ hs₀ => simp [hticked h₀] at hs₀
  | regrant => exact absurd rfl hi
  | setHeadampSrc present =>
    obtain ⟨rows, -, -, heq⟩ := masterSetHeadampSrc_eq tx m present
    have hpost : e.post = { m with headampSrc := present, grantBurst := rows } := by
      rw [he]
      exact heq
    rw [hpost]
    exact ⟨fun h => absurd h (lt_irrefl _), fun hs => by rcases hpre with h | h <;> simp [h] at hs⟩
  | setBox inCh outCh base =>
    rcases masterSetBox_cases tx m inCh outCh base with h | ⟨a, rows, h, -⟩
    · have hpost : e.post = m := by rw [he]; exact h
      rw [hpost]
      exact ⟨fun h => absurd h (lt_irrefl _), fun hs => by rcases hpre with h | h <;> simp [h] at hs⟩
    · have hpost : e.post = m.declared a rows := by rw [he]; exact h
      rw [hpost]
      refine ⟨fun h => absurd h (lt_irrefl _), fun hs => ?_⟩
      have hs' : m.state = .granting := hs
      rcases hpre with h | h <;> simp [h] at hs'

/-- The scene push runs to completion before any grant. -/
theorem scene_push_complete (t : MasterTunables) (placeholder : SceneBody) (src : Mac)
    (cfg : Option ConsoleCfg) (fps : ℤ) (hfps : 500 ≤ fps ∧ fps ≤ 1000000)
    (is : List (HeadampTx × MasterInput)) (hregrant : ∀ i ∈ is, i.2 ≠ .regrant)
    {log : List MasterEvent} {e : MasterEvent}
    (he : (masterMachine t).StepOf (masterInit t placeholder src cfg fps) is log e)
    (hpre : e.pre.state = .idle ∨ e.pre.state = .probing) :
    (e.pre.sceneComplete < e.post.sceneComplete →
      sceneEmissions (sinceLast sendsHead (log ++ [e]))
        = (List.range' 1 341).map (fun k => (.sceneChunk, k)) ++ [(.sceneTail, 342)]) ∧
    (e.post.state = .granting → 0 < e.post.sceneComplete ∧ e.post.sceneInflight = false ∧
      wholeTransfer <:+: sceneEmissions (fromLast entersProbing (log ++ [e]))) := by
  obtain ⟨inv, heq⟩ := (masterMachine t).trace_invariant_at (H := SceneInv)
    (L := fun _ e => e.input.2 ≠ .regrant) (sceneInv_init t placeholder src cfg fps hfps.1 hfps.2)
    (fun _ _ i inv hl => inv.step i hl)
    (fun _ e he => hregrant e.input (Reactive.Machine.StepOf.input_mem _ he)) he
  exact inv.shows e.input (hregrant _ (Reactive.Machine.StepOf.input_mem _ he)) hpre heq

/-- A master at 48 kHz. -/
def deskMaster : Master := masterInit {} (Vector.replicate 8904 0) (Vector.replicate 6 1) none 4000

/-- The JOIN of a box, which arrives before the first slot. -/
def earlyJoin : HeadampTx × MasterInput :=
  (headampTxInit, .rx .join (Vector.replicate 6 2) (some (Vector.replicate 32 0)))

/-- The master with that JOIN parked. -/
def joinedMaster : Master := (masterStep {} deskMaster earlyJoin).1

theorem joinedMaster_parked : joinedMaster.state = .probing ∧ joinedMaster.joinHeld = true ∧
    joinedMaster.joinEv = .join ∧ joinedMaster.joinHoldBlk.isSome = true := by decide +kernel

theorem joinedMaster_geo : BurstGeometry joinedMaster.geo := by
  rw [joinedMaster, (Continues.step _ _ _).geo]
  exact (sceneInv_init {} _ _ none 4000 (by omega) (by omega)).geo

/-- The slots of a push at 48 kHz, the last one apart. -/
def pushRun : List (HeadampTx × MasterInput) :=
  earlyJoin :: List.replicate 2733 (headampTxInit, .next)

theorem pushRun_no_regrant : ∀ i ∈ pushRun ++ [(headampTxInit, .next)], i.2 ≠ .regrant := by
  intro i hi
  simp only [pushRun, List.mem_append, List.mem_cons, List.mem_replicate, List.not_mem_nil,
    or_false] at hi
  rcases hi with (rfl | ⟨-, rfl⟩) | rfl <;> simp [earlyJoin]

theorem pushRun_huntsOn :
    HuntsOn joinedMaster ((masterMachine {}).run deskMaster pushRun) ∧
    ((masterMachine {}).run deskMaster (pushRun ++ [(headampTxInit, .next)])).state
      = .granting := by
  obtain ⟨hs, hheld, hev, hblk⟩ := joinedMaster_parked
  have hpos : joinedMaster.cad.cyclePos = joinedMaster.geo.sub01Off := by decide +kernel
  have hoff : joinedMaster.geo.sub02Off = 2728 := by decide +kernel
  have hrun : ∀ n, (masterMachine {}).run deskMaster
      (earlyJoin :: List.replicate n (headampTxInit, .next))
      = (masterMachine {}).run joinedMaster (List.replicate n (headampTxInit, .next)) := fun _ => rfl
  refine ⟨?_, ?_⟩
  · rw [pushRun, hrun]
    exact (push_slots {} headampTxInit joinedMaster_geo hs hpos (by omega) (by omega)).1
  · obtain ⟨m₁, hon, -, -, heq⟩ := push_completes {} headampTxInit joinedMaster_geo hs hpos
    rw [hoff, if_pos hheld] at heq
    rw [pushRun, List.cons_append, ← List.replicate_succ', hrun]
    rw [show (2728 : ℤ).toNat + 6 = 2733 + 1 from rfl] at heq
    have hm₁ : m₁.state = .probing ∧ Forward m₁.joinEv m₁.joinHoldBlk := by
      obtain ⟨_, _, _, _, _, _, _, _, rfl⟩ := hon
      exact ⟨hs, .inl ⟨hev, hblk⟩⟩
    rw [heq, releaseHeldJoin_forward headampTxInit hm₁.1 hm₁.2, enterGranting_state]

theorem scene_push_complete_early :
    let M := masterMachine {}
    let is := pushRun ++ [(headampTxInit, .next)]
    (M.run deskMaster is).state = .granting ∧ (M.run deskMaster is).sceneInflight = false ∧
    wholeTransfer <:+: sceneEmissions (fromLast entersProbing (M.trace deskMaster is)) := by
  obtain ⟨hon, hpost⟩ := pushRun_huntsOn
  have hpre : ((masterMachine {}).run deskMaster pushRun).state = .probing := by
    obtain ⟨_, _, _, _, _, _, _, _, h⟩ := hon
    rw [h]
    exact joinedMaster_parked.1
  have hstep := (masterMachine {}).stepOf_last deskMaster pushRun (headampTxInit, .next)
  refine ⟨hpost, ?_⟩
  rw [Reactive.Machine.run_concat] at hpost ⊢
  rw [Reactive.Machine.trace_concat]
  have h := scene_push_complete {} (Vector.replicate 8904 0) (Vector.replicate 6 1) none
    4000 (by decide) _ pushRun_no_regrant hstep (.inr hpre)
  exact (h.2 hpost).2

/-! ## The parked edge -/

/-- An edge is parked only while PROBING and short of a whole scene. -/
def Master.HoldOk (m : Master) : Prop :=
  m.joinHeld = true → m.state = .probing ∧ m.sceneTransferReady = false

/-- What one frame does to a parked edge. -/
theorem RxMove.hold {m' : Master} {ev : RxEvent} {src : Mac} {blk : Option Block} {r : Bool}
    (h : RxMove tx m ev src blk m' r) (ok : m.HoldOk) :
    m'.HoldOk ∧ (m'.joinHeld = true →
      (Forward ev blk ∧ (m.state = .idle ∨ m.state = .probing)) ∨
      (m.joinHeld = true ∧ m.state = .probing)) := by
  have hheard : ∀ {m₁ : Master}, Heard m m₁ → m₁.HoldOk ∧
      (m₁.joinHeld = true → m.joinHeld = true ∧ m.state = .probing) := by
    intro m₁ h₁
    rcases h₁.cases with ⟨hidle, -⟩ | ⟨-, seen, lc, rfl⟩
    · simp [Master.HoldOk, (h₁.freshHunt hidle).held]
    · exact ⟨ok, fun hj => ⟨hj, (ok hj).1⟩⟩
  have hfree : ∀ {m₁ : Master}, Heard m m₁ → m₁.state ≠ .probing → m₁.joinHeld = false := by
    intro m₁ h₁ hne
    by_contra hj
    exact hne ((hheard h₁).1 (by simpa using hj)).1
  cases h with
  | refused => exact ⟨ok, fun hj => .inr ⟨hj, (ok hj).1⟩⟩
  | stay _ h₁ => exact ⟨(hheard h₁).1, fun hj => .inr ((hheard h₁).2 hj)⟩
  | held h₁ hs hf hr =>
    exact ⟨fun _ => ⟨hs, hr⟩, fun _ => .inl ⟨hf, h₁.probing_iff.mp hs⟩⟩
  | latch h₁ hs hf hr =>
    rename_i m₁
    have hj : m₁.joinHeld = false := by
      by_contra hj
      have := ((hheard h₁).1 (by simpa using hj)).2
      simp [hr] at this
    obtain ⟨rows, -, -, heq⟩ := enterGranting_eq tx m₁ src (heldBlock ev blk)
    simp [Master.HoldOk, heq, hj]
  | relatch h₁ hs hev hne hacc drop =>
    rename_i m₁
    have hj := hfree h₁ (by rcases hs with h | h <;> simp [h])
    obtain ⟨rows, -, -, heq⟩ := enterGranting_eq tx { m₁ with dropReason := drop } src blk
    rw [heq]
    simp [Master.HoldOk, hj]
  | accept _ h₁ hs =>
    have hj := hfree h₁ (by simp [hs])
    simp [Master.HoldOk, enterEstablished, hj]
  | bye => simp [Master.HoldOk, (enterProbing_freshHunt _).held]

/-- The accounting keeps a parked edge or lets it go. -/
theorem sceneAccount_hold (tx : HeadampTx) (emit : MasterEmit)
    (hs : m.state = .probing ∨ m.state = .established) (ok : m.HoldOk) :
    (sceneAccount tx m emit).HoldOk ∧
    ((sceneAccount tx m emit).joinHeld = true → m.joinHeld = true) ∧
    ((sceneAccount tx m emit).state = m.state ∨ m.joinHeld = true) := by
  have hmove := sceneAccount_move tx emit hs
  generalize sceneAccount tx m emit = m' at hmove
  cases hmove with
  | none => exact ⟨ok, id, .inl rfl⟩
  | opened =>
    refine ⟨fun hj => ⟨(ok hj).1, ?_⟩, id, .inl rfl⟩
    simp [Master.sceneTransferReady]
  | closed _ _ hj => simp [Master.HoldOk, Master.completed, hj]
  | dropped => simp [Master.HoldOk, Master.completed]
  | released _ _ hj =>
    rename_i drop
    obtain ⟨rows, -, -, heq⟩ := enterGranting_eq tx
      { m.completed with joinHeld := false, dropReason := drop } m.joinSrc
      (heldBlock m.joinEv m.joinHoldBlk)
    simp [Master.HoldOk, heq, hj]
  | bye _ hj => simp [Master.HoldOk, (enterProbing_freshHunt _).held, hj]

/-- What one slot does to a parked edge. Without one it does not take the master out of a hunt. -/
theorem NextMove.hold {m' : Master} {s : Slot} (h : NextMove t tx m m' s) (ok : m.HoldOk) :
    m'.HoldOk ∧ (m'.joinHeld = true → m.joinHeld = true ∧ m.state = .probing) ∧
    (m.state = .idle ∨ m.state = .probing → m'.state ≠ .probing →
      m.joinHeld = true ∧ m.state = .probing) := by
  have hticked : ∀ {m₀ : Master}, Ticked m m₀ → m₀.HoldOk ∧
      (m₀.joinHeld = true → m.joinHeld = true ∧ m.state = .probing) := by
    intro m₀ h₀
    rcases h₀.cases with ⟨hidle, -⟩ | ⟨-, seen, tick, rfl⟩
    · simp [Master.HoldOk, (h₀.freshHunt hidle).held]
    · exact ⟨ok, fun hj => ⟨hj, (ok hj).1⟩⟩
  have hprobing : ∀ {m₀ : Master}, Ticked m m₀ → m.state = .idle ∨ m.state = .probing →
      m₀.state = .probing := by
    intro m₀ h₀ hpre
    exact h₀.probing_iff.mpr hpre
  have hfree : ∀ {m₀ : Master}, Ticked m m₀ → m₀.state ≠ .probing → m₀.joinHeld = false := by
    intro m₀ h₀ hne
    by_contra hj
    exact hne ((hticked h₀).1 (by simpa using hj)).1
  cases h with
  | hunt h₀ hs hc blk desc =>
    rename_i m₀ c
    obtain ⟨hok, hkeep, hstate⟩ := sceneAccount_hold tx s.emit
      (m := { m₀ with cad := c, sceneBlk := blk, fillerDesc := desc }) (.inl hs) (hticked h₀).1
    refine ⟨hok, fun hj => (hticked h₀).2 (hkeep hj), fun _ hne => ?_⟩
    rcases hstate with hst | hj
    · exact absurd (hst.trans hs) hne
    · exact (hticked h₀).2 hj
  | grant h₀ hs | wait h₀ hs =>
    have hj := hfree h₀ (by simp [hs])
    refine ⟨by simp [Master.HoldOk, hj], by simp [hj], fun hpre => ?_⟩
    simp [hprobing h₀ hpre] at hs
  | delivered h₀ hs =>
    have hj := hfree h₀ (by simp [hs])
    refine ⟨by simp [Master.HoldOk, enterEstablished, hj], by simp [enterEstablished, hj],
      fun hpre => ?_⟩
    simp [hprobing h₀ hpre] at hs
  | boxUnknown h₀ hs =>
    refine ⟨by simp [Master.HoldOk, (enterProbing_freshHunt _).held],
      by simp [(enterProbing_freshHunt _).held], fun hpre => ?_⟩
    simp [hprobing h₀ hpre] at hs
  | locked h₀ hs hc lc blk desc hlc hleft =>
    rename_i m₀ c
    obtain ⟨hok, hkeep, -⟩ := sceneAccount_hold tx s.emit (m := { m₀ with
      cad := c, linkCheck := lc, sceneBlk := blk, fillerDesc := desc }) (.inr hs) (hticked h₀).1
    refine ⟨hok, fun hj => (hticked h₀).2 (hkeep hj), fun hpre => ?_⟩
    simp [hprobing h₀ hpre] at hs
  | lost h₀ hs =>
    refine ⟨by simp [Master.HoldOk, (enterProbing_freshHunt _).held],
      by simp [(enterProbing_freshHunt _).held], fun hpre => ?_⟩
    simp [hprobing h₀ hpre] at hs

/-- The invariant of a run: the parked edge came in since the hunt began. -/
structure HoldInv (log : List MasterEvent) (m : Master) : Prop where
  hold : m.HoldOk
  asked : m.joinHeld = true → ∃ r ∈ fromLast entersProbing log, asksGrant r = true

theorem mem_fromLast_concat (log : List MasterEvent) (e : MasterEvent) :
    e ∈ fromLast entersProbing (log ++ [e]) := by
  rw [fromLast_concat]
  split_ifs <;> simp

/-- What came in since the hunt began is still there a step later. -/
theorem asked_concat {log : List MasterEvent} {e : MasterEvent} (hs : e.pre.state = .probing)
    (h : ∃ r ∈ fromLast entersProbing log, asksGrant r = true) :
    ∃ r ∈ fromLast entersProbing (log ++ [e]), asksGrant r = true := by
  obtain ⟨r, hr, hask⟩ := h
  refine ⟨r, ?_, hask⟩
  rw [fromLast_concat, if_neg (by simp [entersProbing, hs])]
  exact List.mem_append_left _ hr

theorem asksGrant_of_forward {e : MasterEvent} {ev : RxEvent} {src : Mac} {blk : Option Block}
    (h : Forward ev blk) (he : e.input.2 = .rx ev src blk) : asksGrant e = true := by
  rcases h with ⟨rfl, hb⟩ | rfl <;> simp [asksGrant, *]

/-- One call: the invariant is kept, a step out of a hunt was asked for, and a drop leaves nothing
parked. -/
theorem HoldInv.step {log : List MasterEvent} (inv : HoldInv log m) (i : HeadampTx × MasterInput)
    (hi : i.2 ≠ .regrant) {e : MasterEvent} (he : e = (masterMachine t).event m i) :
    HoldInv (log ++ [e]) e.post ∧
    (leavesProbing e → ∃ r ∈ fromLast entersProbing (log ++ [e]), asksGrant r = true) ∧
    (m.state ≠ .idle → m.state ≠ .probing → e.post.joinHeld = false) := by
  have hpre : e.pre = m := by rw [he]; rfl
  have hin : e.input = i := by rw [he]; rfl
  have hkeep : m.joinHeld = true ∧ m.state = .probing →
      ∃ r ∈ fromLast entersProbing (log ++ [e]), asksGrant r = true :=
    fun h => asked_concat (hpre ▸ h.2) (inv.asked h.1)
  -- A call that keeps the state and the parked edge.
  have hsame : e.post.joinHeld = m.joinHeld → e.post.state = m.state →
      e.post.sceneTransferReady = m.sceneTransferReady →
      HoldInv (log ++ [e]) e.post ∧
      (leavesProbing e → ∃ r ∈ fromLast entersProbing (log ++ [e]), asksGrant r = true) ∧
      (m.state ≠ .idle → m.state ≠ .probing → e.post.joinHeld = false) := by
    intro hj hs hr
    refine ⟨⟨?_, fun h => ?_⟩, fun ⟨hne, hl⟩ => ?_, fun _ hne => ?_⟩
    · rw [Master.HoldOk, hj, hs, hr]
      exact inv.hold
    · rw [hj] at h
      exact hkeep ⟨h, (inv.hold h).1⟩
    · rw [hpre, hs] at *
      rcases hl with h | ⟨h, h'⟩ <;> contradiction
    · rw [hj]
      by_contra h
      exact hne (inv.hold (by simpa using h)).1
  obtain ⟨tx, i⟩ := i
  cases i with
  | rx ev src blk =>
    have hmove := masterRx_move tx m ev src blk
    have hpost : e.post = (masterRx tx m ev src blk).1 := by rw [he]; rfl
    rw [← hpost] at hmove
    obtain ⟨hok, hheld⟩ := hmove.hold inv.hold
    have hnew : Forward ev blk → ∃ r ∈ fromLast entersProbing (log ++ [e]), asksGrant r = true :=
      fun hf => ⟨e, mem_fromLast_concat log e, asksGrant_of_forward hf (by rw [hin])⟩
    refine ⟨⟨hok, fun hj => ?_⟩, fun ⟨hne, hl⟩ => ?_, fun h₁ h₂ => ?_⟩
    · rcases hheld hj with ⟨hf, -⟩ | hj'
      · exact hnew hf
      · exact hkeep hj'
    · rw [hpre] at hl
      have hhunt : m.state = .idle ∨ m.state = .probing :=
        hl.elim .inr fun h => .inl h.1
      rcases (hmove.leaves hhunt).2 with hst | hst | ⟨hf, -⟩
      · rw [hst] at hne hl
        rcases hl with h | ⟨h, h'⟩ <;> contradiction
      · exact absurd hst hne
      · exact hnew hf
    · by_contra hj
      rcases hheld (by simpa using hj) with ⟨-, hs | hs⟩ | ⟨-, hs⟩ <;> contradiction
  | next =>
    have hmove : NextMove t tx m e.post (masterNext t tx m).2 := by
      rw [he]
      exact masterNext_move t tx m
    obtain ⟨hok, hheld, hleave⟩ := hmove.hold inv.hold
    refine ⟨⟨hok, fun hj => hkeep (hheld hj)⟩, fun ⟨hne, hl⟩ => ?_, fun _ h₂ => ?_⟩
    · rw [hpre] at hl
      exact hkeep (hleave (hl.elim .inr fun h => .inl h.1) hne)
    · by_contra hj
      exact h₂ (hheld (by simpa using hj)).2
  | regrant => exact absurd rfl hi
  | setHeadampSrc present =>
    obtain ⟨rows, -, -, heq⟩ := masterSetHeadampSrc_eq tx m present
    have hpost : e.post = { m with headampSrc := present, grantBurst := rows } := by
      rw [he]
      exact heq
    exact hsame (by rw [hpost]) (by rw [hpost]) (by rw [hpost]; rfl)
  | setBox inCh outCh base =>
    rcases masterSetBox_cases tx m inCh outCh base with h | ⟨a, rows, h, -⟩
    · have hpost : e.post = m := by rw [he]; exact h
      exact hsame (by rw [hpost]) (by rw [hpost]) (by rw [hpost])
    · have hpost : e.post = m.declared a rows := by rw [he]; exact h
      exact hsame (by rw [hpost]; rfl) (by rw [hpost]; rfl) (by rw [hpost]; rfl)

theorem holdInv_init (t : MasterTunables) (placeholder : SceneBody) (src : Mac)
    (cfg : Option ConsoleCfg) (fps : ℤ) : HoldInv [] (masterInit t placeholder src cfg fps) := by
  obtain ⟨blk, desc, heq⟩ := masterInit_eq t placeholder src cfg fps
  rw [heq]
  exact ⟨by simp [Master.HoldOk], by simp⟩

/-- No grant into silence: PROBING is left only for a box that asked, and a parked edge lives only
there. -/
theorem no_grant_into_silence (t : MasterTunables) (placeholder : SceneBody) (src : Mac)
    (cfg : Option ConsoleCfg) (fps : ℤ) (is : List (HeadampTx × MasterInput))
    (hregrant : ∀ i ∈ is, i.2 ≠ .regrant) :
    (∀ log e, (masterMachine t).StepOf (masterInit t placeholder src cfg fps) is log e →
      (leavesProbing e → ∃ r ∈ fromLast entersProbing (log ++ [e]), asksGrant r = true) ∧
      (e.pre.state ≠ .idle → entersProbing e = true → e.post.joinHeld = false)) ∧
    let m := (masterMachine t).run (masterInit t placeholder src cfg fps) is
    m.joinHeld = true → m.state = .probing ∧ m.sceneTransferReady = false := by
  have hL : ∀ log e, (masterMachine t).StepOf (masterInit t placeholder src cfg fps) is log e →
      e.input.2 ≠ .regrant :=
    fun log e he => hregrant e.input (Reactive.Machine.StepOf.input_mem _ he)
  refine ⟨fun log e he => ?_, ?_⟩
  · obtain ⟨inv, heq⟩ := (masterMachine t).trace_invariant_at (H := HoldInv)
      (L := fun _ e => e.input.2 ≠ .regrant) (holdInv_init t placeholder src cfg fps)
      (fun _ _ i inv hl => (inv.step i hl rfl).1) hL he
    obtain ⟨-, hleave, hdrop⟩ := inv.step e.input (hL log e he) heq
    refine ⟨hleave, fun hidle henter => hdrop hidle ?_⟩
    simp only [entersProbing, decide_eq_true_eq] at henter
    exact henter.1
  · exact ((masterMachine t).trace_invariant (H := HoldInv)
      (L := fun _ e => e.input.2 ≠ .regrant) (holdInv_init t placeholder src cfg fps)
      (fun _ _ i inv hl => (inv.step i hl rfl).1) is hL).hold

theorem no_grant_into_silence_early :
    let m := (masterMachine {}).run deskMaster pushRun
    m.joinHeld = true ∧ m.state = .probing ∧ m.sceneTransferReady = false := by
  have hheld : ((masterMachine {}).run deskMaster pushRun).joinHeld = true := by
    obtain ⟨_, _, _, _, _, _, _, _, h⟩ := pushRun_huntsOn.1
    rw [h]
    exact joinedMaster_parked.2.1
  exact ⟨hheld, (no_grant_into_silence {} (Vector.replicate 8904 0) (Vector.replicate 6 1) none 4000
    pushRun fun i hi => pushRun_no_regrant i (List.mem_append_left _ hi)).2 hheld⟩

end Libreac
