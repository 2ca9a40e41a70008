import Libreac.Proofs.LinkProofs

/-!
# Proofs: the cadence of a locked master

Two ticks of the same period share the slot stream of a stay in ESTABLISHED. Both count every slot,
so the distance between them never changes, and with it neither can reach the end of its period in a
slot that belongs to the other. The identity re-poll is started by the announce's tick and is over
before the map is due.
-/

namespace Libreac

open Reactive (Event sinceLast sinceLast_concat)

/-! ## Counters that wrap -/

section Wrap

variable {f d : ℤ}

theorem emod_add_of_lt (x : ℤ) (hd : 0 ≤ d) (hlt : d < f) :
    (x + d) % f = if x % f + d < f then x % f + d else x % f + d - f := by
  have hlow := Int.emod_nonneg x (show f ≠ 0 by omega)
  have hhigh := Int.emod_lt_of_pos x (show 0 < f by omega)
  rw [← Int.emod_add_emod]
  split_ifs with hwrap
  · exact Int.emod_eq_of_lt (by omega) hwrap
  · rw [← Int.sub_emod_right]
    exact Int.emod_eq_of_lt (by omega) (by omega)

theorem ediv_add_of_lt (x : ℤ) (hd : 0 ≤ d) (hlt : d < f) :
    (x + d) / f = if x % f + d < f then x / f else x / f + 1 := by
  have hmod := emod_add_of_lt x hd hlt
  have hbefore := Int.emod_add_mul_ediv x f
  have hafter := Int.emod_add_mul_ediv (x + d) f
  apply Int.eq_of_mul_eq_mul_left (show f ≠ 0 by omega)
  split_ifs at hmod ⊢ with hwrap
  · omega
  · rw [Int.mul_add]
    omega

/-- Points of one phase lie whole periods apart. -/
theorem period_le_of_emod_eq {x y : ℤ} (hphase : x % f = y % f) (hlt : x < y) : x + f ≤ y := by
  have hdvd : f ∣ y - x :=
    Int.dvd_of_emod_eq_zero (Int.emod_eq_emod_iff_emod_sub_eq_zero.mp hphase.symm)
  have := Int.le_of_dvd (by omega) hdvd
  omega

end Wrap

/-! ## The slots of a stay -/

/-- The `k`-th request of a round started at slot `s` goes out with slot `n`. -/
def PolledAt (starts : List ℕ) (n : ℕ) (i : ℤ) : Prop :=
  ∃ s ∈ starts, ∃ k < groupbLen, i = (k : ℕ) ∧ n = s + 12 * (k + 1)

/-- What slot `n` of a stay carries, at `f` slots a second, when the rounds of the re-poll are started
at `starts`. -/
structure SlotKeeps (f : ℤ) (starts : List ℕ) (n : ℕ) (s : Slot) : Prop where
  announce : s.emit = .announce ↔ n % f = f - 1 - 3 * f / 4
  chanmap : s.emit = .chanmap ↔ n % f = f - 1 - f / 4
  window : s.emit = .chanmap → s.idx = n / f % chanmapRing
  poll : ∀ i, s = ⟨.identityPoll, i⟩ ↔ PolledAt starts n i
  rest : s.emit = .announce ∨ s.emit = .chanmap ∨ s.emit = .identityPoll ∨ s = .plain .filler

/-- The cadence of a stay in ESTABLISHED, given as the slots and whether the identity was complete
when each was due: the two keep-alives once a period each, the map's windows in order, and whole
rounds of identity requests at most once a period and ten times in all, none of them started with the
identity complete. -/
structure KeepsCadence (f : ℤ) (starts : List ℕ) (slots : List (Bool × Slot)) : Prop where
  rounds : starts.length ≤ 10
  apart : starts.Pairwise fun a b : ℕ => a + f ≤ b
  wanted : ∀ s ∈ starts, ∃ complete slot, slots[s]? = some (complete, slot) ∧ complete = false
  keeps : ∀ n complete slot, slots[n]? = some (complete, slot) → SlotKeeps f starts n slot

/-- How far the cursors have come after `n` slots of a stay. -/
structure StayTicks (f : ℤ) (n : ℕ) (c : Cadence) : Prop where
  announce : c.announceTick = (n + 3 * f / 4) % f
  map : c.estChanmapTick = (n + f / 4) % f
  cursor : c.chanmapCursor = (n + f / 4) / f % chanmapRing

/-- How far the round in progress has come after `n` slots of a stay; `73` slots after its start a
round is over. -/
structure StayRounds (f : ℤ) (starts : List ℕ) (n : ℕ) (c : Cadence) : Prop where
  polls : c.identityPolls = starts.length
  phase : ∀ s ∈ starts, (s + (3 * f / 4 + 1)) % f = f / 4
  ended : c.identityPollLeft = 0 → ∀ s ∈ starts, s + 73 ≤ n
  running : c.identityPollLeft ≠ 0 → ∃ s ∈ starts, (∀ r ∈ starts, r ≠ s → r + 73 ≤ s) ∧
    0 < c.identityPollLeft ∧ c.identityPollLeft ≤ groupbLen ∧
    0 ≤ c.identityPollSlot ∧ c.identityPollSlot < 12 ∧
    n = s + 1 + 12 * (groupbLen - c.identityPollLeft) + c.identityPollSlot ∧
    c.announceTick = f / 4 + 12 * (groupbLen - c.identityPollLeft) + c.identityPollSlot

variable {f : ℤ} {starts : List ℕ} {n : ℕ} {c : Cadence} {g : Geometry}

/-- The two ticks keep their distance. -/
theorem StayTicks.lag (hf : 400 ≤ f) (h : StayTicks f n c) :
    0 ≤ c.announceTick ∧ c.announceTick < f ∧ 0 ≤ c.estChanmapTick ∧ c.estChanmapTick < f ∧
      (c.announceTick = c.estChanmapTick + (3 * f / 4 - f / 4) ∨
        c.announceTick = c.estChanmapTick + (3 * f / 4 - f / 4) - f) := by
  have hsplit : (n : ℤ) + 3 * f / 4 = n + f / 4 + (3 * f / 4 - f / 4) := by omega
  have hmod := emod_add_of_lt (n + f / 4) (show 0 ≤ 3 * f / 4 - f / 4 by omega)
    (show 3 * f / 4 - f / 4 < f by omega)
  rw [h.announce, h.map, hsplit]
  have hlow := Int.emod_nonneg (n + f / 4) (show f ≠ 0 by omega)
  have hhigh := Int.emod_lt_of_pos (n + f / 4) (show 0 < f by omega)
  split_ifs at hmod <;> omega

/-- The announce is due with the last tick of its period. -/
theorem StayTicks.announce_due (hf : 400 ≤ f) (h : StayTicks f n c) :
    f ≤ c.announceTick + 1 ↔ n % f = f - 1 - 3 * f / 4 := by
  have hmod := emod_add_of_lt n (show 0 ≤ 3 * f / 4 by omega) (show 3 * f / 4 < f by omega)
  have hlow := Int.emod_nonneg n (show f ≠ 0 by omega)
  have hhigh := Int.emod_lt_of_pos n (show 0 < f by omega)
  rw [h.announce]
  split_ifs at hmod <;> omega

/-- So is the map, and its cursor has counted the periods. -/
theorem StayTicks.map_due (hf : 400 ≤ f) (h : StayTicks f n c) :
    (f ≤ c.estChanmapTick + 1 ↔ n % f = f - 1 - f / 4) ∧
      (f ≤ c.estChanmapTick + 1 → (c.chanmapCursor : ℤ) = n / f % chanmapRing) := by
  have hmod := emod_add_of_lt n (show 0 ≤ f / 4 by omega) (show f / 4 < f by omega)
  have hdiv := ediv_add_of_lt n (show 0 ≤ f / 4 by omega) (show f / 4 < f by omega)
  have hlow := Int.emod_nonneg n (show f ≠ 0 by omega)
  have hhigh := Int.emod_lt_of_pos n (show 0 < f by omega)
  rw [h.map, h.cursor]
  split_ifs at hmod hdiv with hwrap
  · exact ⟨by omega, fun _ => by rw [hdiv]⟩
  · exact ⟨by omega, fun hdue => absurd hdue (by omega)⟩

/-- One slot later, whichever of the two was due. -/
theorem StayTicks.next (hf : 400 ≤ f) (h : StayTicks f n c) {c' : Cadence}
    (hannounce : c'.announceTick = if f ≤ c.announceTick + 1 then 0 else c.announceTick + 1)
    (hmap : c'.estChanmapTick = if f ≤ c.estChanmapTick + 1 then 0 else c.estChanmapTick + 1)
    (hcursor : c'.chanmapCursor =
      if f ≤ c.estChanmapTick + 1 then (c.chanmapCursor + 1) % chanmapRing else c.chanmapCursor) :
    StayTicks f (n + 1) c' := by
  have hone : (0 : ℤ) ≤ 1 := by omega
  have hnext : ∀ d : ℤ, ((n + 1 : ℕ) : ℤ) + d = n + d + 1 := by
    intro d
    omega
  obtain ⟨h₁, h₂, h₃⟩ := h
  refine ⟨?_, ?_, ?_⟩
  · have hmod := emod_add_of_lt (n + 3 * f / 4) hone (show 1 < f by omega)
    have hhigh := Int.emod_lt_of_pos (n + 3 * f / 4) (show 0 < f by omega)
    rw [hannounce, h₁, hnext, hmod]
    split_ifs <;> omega
  · have hmod := emod_add_of_lt (n + f / 4) hone (show 1 < f by omega)
    have hhigh := Int.emod_lt_of_pos (n + f / 4) (show 0 < f by omega)
    rw [hmap, h₂, hnext, hmod]
    split_ifs <;> omega
  · have hdiv := ediv_add_of_lt (n + f / 4) hone (show 1 < f by omega)
    rw [hcursor, h₂, hnext, hdiv]
    split_ifs with hdue hin
    · omega
    · push_cast
      rw [h₃, Int.emod_add_emod]
    · exact h₃
    · omega

/-- Between two slots of a round nothing else is due. -/
theorem StayRounds.quiet (hf : 400 ≤ f) (ht : StayTicks f n c) (h : StayRounds f starts n c)
    (hdue : f ≤ c.announceTick + 1 ∨ f ≤ c.estChanmapTick + 1) : c.identityPollLeft = 0 := by
  by_contra hne
  obtain ⟨s, -, -, hpos, hle, hslot, hlt, -, htick⟩ := h.running hne
  have hlag := ht.lag hf
  unfold groupbLen at hle htick
  omega

/-- A round that is over has nothing in this slot. -/
theorem StayRounds.not_polledAt (h : StayRounds f starts n c) (hleft : c.identityPollLeft = 0)
    (i : ℤ) : ¬ PolledAt starts n i := by
  rintro ⟨s, hs, k, hk, -, hn⟩
  have := h.ended hleft s hs
  unfold groupbLen at hk
  omega

/-! ## One slot -/

/-- A slot that belongs to one of the two keep-alives leaves the re-poll as it was. -/
theorem StayRounds.pass (h : StayRounds f starts n c) (hleft : c.identityPollLeft = 0) {c' : Cadence}
    (hpolls : c'.identityPolls = c.identityPolls)
    (hkept : c'.identityPollLeft = c.identityPollLeft) : StayRounds f starts (n + 1) c' := by
  refine ⟨hpolls.trans h.polls, h.phase, ?_, fun hne => absurd (hkept.trans hleft) hne⟩
  intro _ s hs
  have := h.ended hleft s hs
  omega

/-- A request of the running round. -/
theorem StayRounds.request (h : StayRounds f starts n c) (hne : c.identityPollLeft ≠ 0)
    (hslot : 12 ≤ c.identityPollSlot + 1) {d : Cadence} (hpolls : d.identityPolls = c.identityPolls)
    (hleft : d.identityPollLeft = c.identityPollLeft - 1) (hzero : d.identityPollSlot = 0)
    (htick : d.announceTick = c.announceTick + 1) :
    StayRounds f starts (n + 1) d ∧
      ∀ i, PolledAt starts n i ↔ i = groupbLen - c.identityPollLeft := by
  obtain ⟨s, hs, hothers, hpos, hle, -, hlt, hn, hphase⟩ := h.running hne
  unfold groupbLen at hle hn hphase
  refine ⟨⟨hpolls.trans h.polls, h.phase, ?_, ?_⟩, fun i => ⟨?_, ?_⟩⟩
  · intro hdone r hr
    by_cases hrs : r = s
    · omega
    · have := hothers r hr hrs
      omega
  · intro hmore
    refine ⟨s, hs, hothers, ?_⟩
    unfold groupbLen
    omega
  · rintro ⟨r, hr, k, hk, rfl, hnr⟩
    unfold groupbLen at hk ⊢
    by_cases hrs : r = s
    · omega
    · have := hothers r hr hrs
      omega
  · rintro rfl
    refine ⟨s, hs, (groupbLen - c.identityPollLeft).toNat, ?_⟩
    unfold groupbLen
    omega

/-- A slot between two requests. -/
theorem StayRounds.wait (h : StayRounds f starts n c) (hne : c.identityPollLeft ≠ 0)
    (hslot : c.identityPollSlot + 1 < 12) {d : Cadence} (hpolls : d.identityPolls = c.identityPolls)
    (hleft : d.identityPollLeft = c.identityPollLeft)
    (hnext : d.identityPollSlot = c.identityPollSlot + 1)
    (htick : d.announceTick = c.announceTick + 1) :
    StayRounds f starts (n + 1) d ∧ ∀ i, ¬ PolledAt starts n i := by
  obtain ⟨s, hs, hothers, hpos, hle, hlow, -, hn, hphase⟩ := h.running hne
  unfold groupbLen at hle hn hphase
  refine ⟨⟨hpolls.trans h.polls, h.phase, fun hdone => absurd (hleft ▸ hdone) hne, fun _ => ?_⟩, ?_⟩
  · refine ⟨s, hs, hothers, ?_⟩
    unfold groupbLen
    omega
  · rintro i ⟨r, hr, k, hk, rfl, hnr⟩
    unfold groupbLen at hk
    by_cases hrs : r = s
    · omega
    · have := hothers r hr hrs
      omega

/-- A round starts, a quarter of a period after the announce. -/
theorem StayRounds.start (hf : 400 ≤ f) (ht : StayTicks f n c) (h : StayRounds f starts n c)
    (hleft : c.identityPollLeft = 0) (hphase : c.announceTick + 1 = f / 4) {d : Cadence}
    (hpolls : d.identityPolls = c.identityPolls + 1) (hround : d.identityPollLeft = groupbLen)
    (hzero : d.identityPollSlot = 0) (htick : d.announceTick = c.announceTick + 1) :
    StayRounds f (starts ++ [n]) (n + 1) d ∧ (∀ i, ¬ PolledAt (starts ++ [n]) n i) ∧
      ∀ s ∈ starts, s + f ≤ n := by
  have hnow : ((n : ℤ) + (3 * f / 4 + 1)) % f = f / 4 := by
    have hmod := emod_add_of_lt (n + 3 * f / 4) (show (0 : ℤ) ≤ 1 by omega) (show 1 < f by omega)
    have hsplit : (n : ℤ) + (3 * f / 4 + 1) = n + 3 * f / 4 + 1 := by omega
    have htick := ht.announce
    rw [hsplit, hmod]
    split_ifs <;> omega
  have hapart : ∀ s ∈ starts, s + f ≤ n := by
    intro s hs
    have hover := h.ended hleft s hs
    have hperiod := period_le_of_emod_eq ((h.phase s hs).trans hnow.symm) (by omega)
    omega
  refine ⟨⟨?_, ?_, ?_, fun _ => ?_⟩, ?_, hapart⟩
  · rw [hpolls, h.polls]
    simp
  · intro s hs
    rcases List.mem_append.mp hs with hs | hs
    · exact h.phase s hs
    · obtain rfl := List.mem_singleton.mp hs
      exact hnow
  · intro hdone
    rw [hround] at hdone
    exact absurd hdone (by decide)
  · refine ⟨n, by simp, ?_, ?_⟩
    · intro r hr hne
      rcases List.mem_append.mp hr with hr | hr
      · exact h.ended hleft r hr
      · exact absurd (List.mem_singleton.mp hr) hne
    · rw [hround, hzero, htick, hphase]
      unfold groupbLen
      omega
  · rintro i ⟨r, hr, k, hk, -, hnr⟩
    unfold groupbLen at hk
    rcases List.mem_append.mp hr with hr | hr
    · have := h.ended hleft r hr
      omega
    · have := List.mem_singleton.mp hr
      omega

/-- A slot nothing is due in. -/
theorem StayTicks.filler_keeps (hf : 400 ≤ f) (ht : StayTicks f n c) (ha : ¬ f ≤ c.announceTick + 1)
    (hm : ¬ f ≤ c.estChanmapTick + 1) (hno : ∀ i, ¬ PolledAt starts n i) :
    SlotKeeps f starts n (.plain .filler) where
  announce := ⟨nofun, fun h => absurd ((ht.announce_due hf).mpr h) ha⟩
  chanmap := ⟨nofun, fun h => absurd ((ht.map_due hf).1.mpr h) hm⟩
  window := nofun
  poll i := ⟨nofun, fun h => absurd h (hno i)⟩
  rest := .inr (.inr (.inr rfl))

/-- The rounds after a slot: those before it, and perhaps one the slot starts. -/
def RoundsAfter (f : ℤ) (starts : List ℕ) (n : ℕ) (complete : Bool) (starts' : List ℕ) : Prop :=
  starts' = starts ∨ starts' = starts ++ [n] ∧ complete = false ∧ starts.length < 10 ∧
    ∀ s ∈ starts, s + f ≤ n

/-- One slot of a stay keeps to the cadence. -/
theorem lockedCadence_keeps {t : MasterTunables} (hest : t.estScene = false) (hf : 400 ≤ g.fps)
    (hstride : g.grantStride = 12) (complete : Bool) (pos p : ℤ) (ht : StayTicks g.fps n c)
    (hr : StayRounds g.fps starts n c) :
    let r := lockedCadence t g complete pos
      { c with cyclePos := p, announceTick := c.announceTick + 1 }
    StayTicks g.fps (n + 1) r.1 ∧ ∃ starts', RoundsAfter g.fps starts n complete starts' ∧
      StayRounds g.fps starts' (n + 1) r.1 ∧ SlotKeeps g.fps starts' n r.2 := by
  have hlag := ht.lag hf
  have hadue := ht.announce_due hf
  obtain ⟨hmdue, hwindow⟩ := ht.map_due hf
  dsimp only
  unfold lockedCadence
  dsimp only
  by_cases ha : g.fps ≤ c.announceTick + 1
  · -- The announce is due, and the map is not.
    have hm : ¬ g.fps ≤ c.estChanmapTick + 1 := by omega
    have hquiet := hr.quiet hf ht (.inl ha)
    rw [if_pos ha]
    refine ⟨ht.next hf ?_ ?_ ?_, starts, .inl rfl, hr.pass hquiet rfl rfl, ?_⟩
    · rw [if_pos ha]
    · rw [if_neg hm]
    · rw [if_neg hm]
    · exact ⟨⟨fun _ => hadue.mp ha, fun _ => rfl⟩, ⟨nofun, fun h => absurd (hmdue.mpr h) hm⟩, nofun,
        fun i => ⟨nofun, fun h => absurd h (hr.not_polledAt hquiet i)⟩, .inl rfl⟩
  rw [if_neg ha]
  by_cases hm : g.fps ≤ c.estChanmapTick + 1
  · -- The map is due.
    have hquiet := hr.quiet hf ht (.inr hm)
    rw [if_pos hm]
    refine ⟨ht.next hf ?_ ?_ ?_, starts, .inl rfl, hr.pass hquiet rfl rfl, ?_⟩
    · rw [if_neg ha]
    · rw [if_pos hm]
    · rw [if_pos hm]
    · exact ⟨⟨nofun, fun h => absurd (hadue.mpr h) ha⟩, ⟨fun _ => hmdue.mp hm, fun _ => rfl⟩,
        fun _ => hwindow hm, fun i => ⟨nofun, fun h => absurd h (hr.not_polledAt hquiet i)⟩,
        .inr (.inl rfl)⟩
  rw [if_neg hm, hest]
  -- Neither is: the slot is the re-poll's.
  have hticks : ∀ c' : Cadence, c'.announceTick = c.announceTick + 1 →
      c'.estChanmapTick = c.estChanmapTick + 1 → c'.chanmapCursor = c.chanmapCursor →
      StayTicks g.fps (n + 1) c' := by
    intro c' h₁ h₂ h₃
    apply ht.next hf
    · rw [if_neg ha, h₁]
    · rw [if_neg hm, h₂]
    · rw [if_neg hm, h₃]
  have hidle := fun starts' (hno : ∀ i, ¬ PolledAt starts' n i) => ht.filler_keeps hf ha hm hno
  simp only [Bool.false_eq_true, if_false]
  unfold identityPoll
  dsimp only
  by_cases hround : c.identityPollLeft = 0
  · rw [if_neg (by omega)]
    split_ifs with hstart
    · obtain ⟨hincomplete, hpolls, hphase⟩ := hstart
      obtain ⟨hnext, hno, hapart⟩ := hr.start hf ht hround hphase (d := { c with
        cyclePos := p, announceTick := c.announceTick + 1, estChanmapTick := c.estChanmapTick + 1
        identityPolls := c.identityPolls + 1, identityPollLeft := groupbLen, identityPollSlot := 0 })
        rfl rfl rfl rfl
      have hcount := hr.polls
      refine ⟨hticks _ rfl rfl rfl, _, .inr ⟨rfl, hincomplete, by omega, hapart⟩, hnext, ?_⟩
      exact hidle _ hno
    · refine ⟨hticks _ rfl rfl rfl, starts, .inl rfl, hr.pass hround rfl rfl, ?_⟩
      exact hidle _ (hr.not_polledAt hround)
  · have hpos : 0 < c.identityPollLeft := by
      obtain ⟨s, -, -, hpos, -⟩ := hr.running hround
      exact hpos
    rw [if_pos hpos, hstride]
    split_ifs with hslot
    · obtain ⟨hnext, hpoll⟩ := hr.request hround hslot (d := { c with
        cyclePos := p, announceTick := c.announceTick + 1, estChanmapTick := c.estChanmapTick + 1
        identityPollSlot := 0, identityPollLeft := c.identityPollLeft - 1 }) rfl rfl rfl rfl
      refine ⟨hticks _ rfl rfl rfl, starts, .inl rfl, hnext, ?_⟩
      refine ⟨⟨nofun, fun h => absurd (hadue.mpr h) ha⟩, ⟨nofun, fun h => absurd (hmdue.mpr h) hm⟩,
        nofun, fun i => ?_, .inr (.inr (.inl rfl))⟩
      rw [hpoll, Slot.mk.injEq]
      exact ⟨fun h => h.2.symm, fun h => ⟨rfl, h.symm⟩⟩
    · obtain ⟨hnext, hno⟩ := hr.wait hround (by omega) (d := { c with
        cyclePos := p, announceTick := c.announceTick + 1, estChanmapTick := c.estChanmapTick + 1
        identityPollSlot := c.identityPollSlot + 1 }) rfl rfl rfl rfl
      exact ⟨hticks _ rfl rfl rfl, starts, .inl rfl, hnext, hidle _ hno⟩

/-! ## A stay -/

theorem keepsCadence_nil (f : ℤ) : KeepsCadence f [] [] :=
  ⟨by simp, .nil, by simp, by simp⟩

/-- A round that starts now changes nothing about the slots so far. -/
theorem PolledAt.append_iff {i : ℤ} {k : ℕ} (hk : k ≤ n) :
    PolledAt (starts ++ [n]) k i ↔ PolledAt starts k i := by
  constructor
  · rintro ⟨s, hs, j, hj, hi, hkj⟩
    rcases List.mem_append.mp hs with hs | hs
    · exact ⟨s, hs, j, hj, hi, hkj⟩
    · have := List.mem_singleton.mp hs
      omega
  · rintro ⟨s, hs, hpoll⟩
    exact ⟨s, List.mem_append_left _ hs, hpoll⟩

theorem RoundsAfter.keeps {complete : Bool} {starts' : List ℕ}
    (h : RoundsAfter f starts n complete starts') {k : ℕ} (hk : k ≤ n) {s : Slot} :
    SlotKeeps f starts' k s ↔ SlotKeeps f starts k s := by
  rcases h with rfl | ⟨rfl, -⟩
  · exact Iff.rfl
  · constructor
    · rintro ⟨h₁, h₂, h₃, h₄, h₅⟩
      exact ⟨h₁, h₂, h₃, fun i => (h₄ i).trans (PolledAt.append_iff hk), h₅⟩
    · rintro ⟨h₁, h₂, h₃, h₄, h₅⟩
      exact ⟨h₁, h₂, h₃, fun i => (h₄ i).trans (PolledAt.append_iff hk).symm, h₅⟩

/-- A stay that has kept the cadence keeps it with one more slot. -/
theorem KeepsCadence.append {slots : List (Bool × Slot)} (h : KeepsCadence f starts slots)
    {complete : Bool} {starts' : List ℕ} {s : Slot}
    (hstarts : RoundsAfter f starts slots.length complete starts')
    (hslot : SlotKeeps f starts' slots.length s) :
    KeepsCadence f starts' (slots ++ [(complete, s)]) := by
  obtain ⟨hrounds, hapart, hwanted, hkeeps⟩ := h
  have hbefore : ∀ k < slots.length, (slots ++ [(complete, s)])[k]? = slots[k]? := by
    intro k hk
    exact List.getElem?_append_left hk
  have hkept : ∀ r ∈ starts, ∃ wanted slot,
      (slots ++ [(complete, s)])[r]? = some (wanted, slot) ∧ wanted = false := by
    intro r hr
    obtain ⟨wanted, slot, hat, hno⟩ := hwanted r hr
    have hlt := (List.getElem?_eq_some_iff.mp hat).1
    exact ⟨wanted, slot, (hbefore r hlt).trans hat, hno⟩
  have hall : ∀ k wanted slot, (slots ++ [(complete, s)])[k]? = some (wanted, slot) →
      SlotKeeps f starts' k slot := by
    intro k wanted slot hat
    by_cases hk : k < slots.length
    · rw [hbefore k hk] at hat
      exact (hstarts.keeps hk.le).mpr (hkeeps k wanted slot hat)
    · have hlast := (List.getElem?_eq_some_iff.mp hat).1
      rw [List.length_append, List.length_singleton] at hlast
      obtain rfl : k = slots.length := by omega
      rw [List.getElem?_concat_length] at hat
      obtain ⟨rfl, rfl⟩ := Prod.mk.inj (Option.some.inj hat)
      exact hslot
  rcases hstarts with rfl | ⟨rfl, hno, hlt, hfar⟩
  · exact ⟨hrounds, hapart, hkept, hall⟩
  · refine ⟨by simp; omega, ?_, ?_, hall⟩
    · rw [List.pairwise_append]
      refine ⟨hapart, List.pairwise_singleton .., fun a ha b hb => ?_⟩
      obtain rfl := List.mem_singleton.mp hb
      exact hfar a ha
    · intro r hr
      rcases List.mem_append.mp hr with hr | hr
      · exact hkept r hr
      · obtain rfl := List.mem_singleton.mp hr
        exact ⟨complete, s, List.getElem?_concat_length .., hno⟩

/-- A step of an owner. -/
abbrev OwnerEvent := Event Master (HeadampTx × OwnerInput) (Option Slot)

/-- The slots of the stay in ESTABLISHED the log ends in, each with whether the identity was complete;
none if the last call did not find the master there. -/
def staySlots (log : List OwnerEvent) : List (Bool × Slot) :=
  (sinceLast (fun e => e.pre.state ≠ .established) log).filterMap fun e =>
    e.out.map fun s => (e.pre.identityComplete, s)

theorem staySlots_concat_of_ne {log : List OwnerEvent} {e : OwnerEvent}
    (h : e.pre.state ≠ .established) : staySlots (log ++ [e]) = [] := by
  unfold staySlots
  rw [sinceLast_concat, if_pos (decide_eq_true h), List.filterMap_nil]

theorem staySlots_concat_of_eq {log : List OwnerEvent} {e : OwnerEvent}
    (h : e.pre.state = .established) :
    staySlots (log ++ [e]) =
      staySlots log ++ (e.out.map fun s => (e.pre.identityComplete, s)).toList := by
  unfold staySlots
  rw [sinceLast_concat, if_neg (by simp [h]), List.filterMap_append]
  obtain ⟨pre, input, out, post⟩ := e
  cases out <;> rfl

variable {t : MasterTunables} {tx : HeadampTx} {m : Master}

/-- The cursors a session opens with. -/
def SessionCadence (g : Geometry) (c : Cadence) : Prop :=
  ∃ c₀ : Cadence, c = resetControlCadence g { c₀ with identityPolls := 0, identityPollLeft := 0 }

theorem SessionCadence.ticks (hf : 400 ≤ g.fps) (hint : 3 * g.fps < 2147483648)
    (h : SessionCadence g c) : StayTicks g.fps 0 c := by
  obtain ⟨c₀, rfl⟩ := h
  refine ⟨?_, ?_, ?_⟩
  · simp only [resetControlCadence, Nat.cast_zero, zero_add]
    rw [wrapInt_of_lt (by omega) hint, Int.tdiv_eq_ediv_of_nonneg (by omega)]
    exact (Int.emod_eq_of_lt (by omega) (by omega)).symm
  · simp only [resetControlCadence, Nat.cast_zero, zero_add]
    exact (Int.emod_eq_of_lt (by omega) (by omega)).symm
  · simp only [resetControlCadence, Nat.cast_zero, zero_add]
    rw [Int.ediv_eq_zero_of_lt (by omega) (by omega)]
    rfl

theorem SessionCadence.rounds (h : SessionCadence g c) : StayRounds g.fps [] 0 c := by
  obtain ⟨c₀, rfl⟩ := h
  exact ⟨rfl, by simp, by simp, fun hne => absurd rfl hne⟩

/-- A frame does not touch the cadence of a stay; a session it opens starts with fresh cursors. -/
theorem masterRx_cad (tx : HeadampTx) (m : Master) (ev : RxEvent) (src : Mac) (blk : Option Block)
    (hs : (masterRx tx m ev src blk).1.state = .established) :
    if m.state = .established then (masterRx tx m ev src blk).1.cad = m.cad
    else SessionCadence m.geo (masterRx tx m ev src blk).1.cad := by
  have hmove := masterRx_move tx m ev src blk
  generalize masterRx tx m ev src blk = r at hs hmove ⊢
  obtain ⟨m', ret⟩ := r
  dsimp only at hs hmove ⊢
  cases hmove with
  | refused => rw [if_pos hs]
  | stay _ h₁ =>
    obtain ⟨seen, lc, rfl⟩ := h₁.of_ne_probing (by rw [hs]; decide)
    rw [if_pos hs]
  | held _ hprobing =>
    have hs' : MasterState.established = .probing := hs.symm.trans hprobing
    cases hs'
  | latch | relatch =>
    rw [enterGranting_state] at hs
    cases hs
  | accept _ h₁ hgranting =>
    obtain ⟨seen, lc, rfl⟩ := h₁.of_ne_probing (by rw [hgranting]; decide)
    rw [if_neg (by rw [show m.state = .granting from hgranting]; decide)]
    exact ⟨_, rfl⟩
  | bye =>
    rw [enterProbing_state] at hs
    cases hs

/-- Without the opt-in push a locked slot carries no step of a scene. -/
theorem controlCadence_not_scene (hest : t.estScene = false) (hs : m.state = .established) :
    (controlCadence t m).2.emit.isScene = false := by
  unfold controlCadence lockedCadence
  rw [if_pos hs, hest]
  simp only [Bool.false_eq_true, if_false]
  split_ifs
  · rfl
  · rfl
  · unfold identityPoll
    split_ifs <;> rfl

/-- A slot of a stay is the control cadence's, which also moves the cursors. -/
theorem masterNext_stay (tx : HeadampTx) (hest : t.estScene = false) (hs : m.state = .established) :
    (masterNext t tx m).2 = (controlCadence t m).2 ∧
      ((masterNext t tx m).1.state = .established →
        (masterNext t tx m).1.cad = (controlCadence t m).1) := by
  have hmove := masterNext_move t tx m
  generalize masterNext t tx m = r at hmove ⊢
  obtain ⟨m', s⟩ := r
  dsimp only at hmove ⊢
  have hsame : ∀ m₀, Ticked m m₀ →
      m₀.state = .established ∧ controlCadence t m₀ = controlCadence t m := by
    intro m₀ h₀
    obtain ⟨seen, tick, rfl⟩ := h₀.of_ne_idle (by rw [hs]; decide)
    exact ⟨hs, rfl⟩
  cases hmove with
  | hunt h₀ hs₀ | grant h₀ hs₀ | delivered h₀ hs₀ | wait h₀ hs₀ | boxUnknown h₀ hs₀ =>
    have hestablished := (hsame _ h₀).1
    rw [hs₀] at hestablished
    cases hestablished
  | locked h₀ hs₀ hc =>
    rw [← (hsame _ h₀).2, hc]
    refine ⟨rfl, fun _ => ?_⟩
    rw [sceneAccount_of_not_scene]
    have hscene := controlCadence_not_scene hest hs₀
    rwa [hc] at hscene
  | lost h₀ hs₀ hc =>
    rw [← (hsame _ h₀).2, hc]
    refine ⟨rfl, fun hstate => ?_⟩
    rw [show _ = MasterState.probing from enterProbing_state _] at hstate
    cases hstate

/-- A session is opened with fresh cursors. -/
theorem masterNext_opens (tx : HeadampTx) (hs : m.state ≠ .established)
    (hpost : (masterNext t tx m).1.state = .established) :
    SessionCadence m.geo (masterNext t tx m).1.cad := by
  have hgeo := (Continues.step t m (tx, .next)).geo
  have hmove := masterNext_move t tx m
  simp only [masterStep] at hgeo
  generalize masterNext t tx m = r at hmove hpost hgeo ⊢
  obtain ⟨m', s⟩ := r
  dsimp only at hmove hpost hgeo ⊢
  cases hmove with
  | @hunt m₀ h₀ hs₀ c s hc blk desc =>
    have hscene := sceneAccount_move tx (m := { m₀ with cad := c, sceneBlk := blk, fillerDesc := desc })
      s.emit (.inl hs₀)
    rcases hscene.state_cases with hstate | hstate | hstate
    · have hprobing : MasterState.established = .probing := hpost.symm.trans (hstate.trans hs₀)
      cases hprobing
    · rw [hpost] at hstate
      cases hstate
    · rw [hpost] at hstate
      cases hstate
  | grant _ hs₀ | wait _ hs₀ =>
    have hgranting : MasterState.established = .granting := hpost.symm.trans hs₀
    cases hgranting
  | delivered => exact ⟨_, by rw [← hgeo]; rfl⟩
  | boxUnknown =>
    rw [enterProbing_state] at hpost
    cases hpost
  | locked h₀ hs₀ | lost h₀ hs₀ =>
    obtain ⟨seen, tick, rfl⟩ := h₀.of_ne_probing (by rw [hs₀]; decide)
    exact absurd hs₀ hs

/-- What a call that carries no slot does to the cursors. -/
theorem ownerStep_cad {i : OwnerInput} (hi : i ≠ .call .next)
    (hpost : (ownerStep t m (tx, i)).1.state = .established) :
    if m.state = .established then (ownerStep t m (tx, i)).1.cad = m.cad
    else SessionCadence m.geo (ownerStep t m (tx, i)).1.cad := by
  cases i with
  | identityAnswered complete => rw [if_pos (show m.state = .established from hpost)]; rfl
  | call i =>
    cases i with
    | rx ev src blk => exact masterRx_cad tx m ev src blk hpost
    | next => exact absurd rfl hi
    | regrant =>
      have hgranting : MasterState.established = .granting :=
        hpost.symm.trans (enterGranting_state tx m m.boxMac none)
      cases hgranting
    | setHeadampSrc present =>
      obtain ⟨rows, -, -, heq⟩ := masterSetHeadampSrc_eq tx m present
      simp only [ownerStep, masterStep, heq] at hpost ⊢
      simp [hpost]
    | setBox inCh outCh base =>
      rcases masterSetBox_cases tx m inCh outCh base with heq | ⟨a, rows, heq, -⟩
      · simp only [ownerStep, masterStep, heq] at hpost ⊢
        simp [hpost]
      · simp only [ownerStep, masterStep, heq] at hpost ⊢
        have hs : m.state = .established := hpost
        rw [if_pos hs]
        simp [Master.declared, hs]

/-! ## Every run -/

/-- Where a run stands: the slots of its last stay kept the cadence, and during a stay the cursors
have come as far as its slots. -/
structure StayInv (g : Geometry) (log : List OwnerEvent) (m : Master) : Prop where
  geo : m.geo = g
  stay : ∃ starts, KeepsCadence g.fps starts (staySlots log) ∧ (m.state = .established →
    StayTicks g.fps (staySlots log).length m.cad ∧ StayRounds g.fps starts (staySlots log).length m.cad)

theorem ownerStep_geo (t : MasterTunables) (m : Master) (i : HeadampTx × OwnerInput) :
    (ownerStep t m i).1.geo = m.geo := by
  obtain ⟨tx, i⟩ := i
  cases i with
  | call i => exact (Continues.step t m (tx, i)).geo
  | identityAnswered => rfl

theorem StayInv.step (hest : t.estScene = false) (hf : 400 ≤ g.fps) (hint : 3 * g.fps < 2147483648)
    (hstride : g.grantStride = 12) {log : List OwnerEvent} (h : StayInv g log m) (i : HeadampTx × OwnerInput) :
    StayInv g (log ++ [(ownerMachine t).event m i]) (ownerStep t m i).1 := by
  obtain ⟨hgeo, starts, hkeeps, hcursors⟩ := h
  have hgeo' := (ownerStep_geo t m i).trans hgeo
  refine ⟨hgeo', ?_⟩
  obtain ⟨tx, i⟩ := i
  by_cases hs : m.state = .established
  · obtain ⟨hticks, hrounds⟩ := hcursors hs
    rw [staySlots_concat_of_eq (e := (ownerMachine t).event m (tx, i)) hs]
    by_cases hi : i = .call .next
    · -- The slot is one of the stay.
      subst hi
      obtain ⟨hslot, hcad⟩ := masterNext_stay tx hest hs
      have hstep : ((ownerMachine t).event m (tx, .call .next)).out = some (controlCadence t m).2 :=
        congrArg some hslot
      have hlocked : controlCadence t m = lockedCadence t m.geo m.identityComplete m.cad.cyclePos
          { m.cad with
            cyclePos := (m.cad.cyclePos + 1).tmod m.geo.cycleLen
            announceTick := m.cad.announceTick + 1 } := by
        unfold controlCadence
        rw [if_pos hs]
      obtain ⟨hticks', starts', hafter, hrounds', hone⟩ := lockedCadence_keeps hest hf hstride
        m.identityComplete m.cad.cyclePos ((m.cad.cyclePos + 1).tmod m.geo.cycleLen) hticks hrounds
      rw [← hgeo, ← hlocked] at hticks' hrounds' hone
      rw [hgeo] at hticks' hrounds' hone
      rw [hstep]
      refine ⟨starts', hkeeps.append hafter hone, fun hpost => ?_⟩
      rw [show (ownerStep t m (tx, .call .next)).1.cad = (controlCadence t m).1 from hcad hpost]
      simpa using ⟨hticks', hrounds'⟩
    · -- No slot, and the cursors do not move.
      have hnone : ((ownerMachine t).event m (tx, i)).out = none := by
        cases i with
        | identityAnswered => rfl
        | call i =>
          cases i with
          | next => exact absurd rfl hi
          | rx | regrant | setHeadampSrc | setBox => rfl
      rw [hnone]
      refine ⟨starts, by simpa using hkeeps, fun hpost => ?_⟩
      have hcad := ownerStep_cad hi hpost
      rw [if_pos hs] at hcad
      rw [hcad]
      simpa using ⟨hticks, hrounds⟩
  · rw [staySlots_concat_of_ne (e := (ownerMachine t).event m (tx, i)) hs]
    refine ⟨[], keepsCadence_nil _, fun hpost => ?_⟩
    have hopen : SessionCadence g (ownerStep t m (tx, i)).1.cad := by
      by_cases hi : i = .call .next
      · subst hi
        rw [← hgeo]
        exact masterNext_opens tx hs hpost
      · have hcad := ownerStep_cad hi hpost
        rw [if_neg hs, hgeo] at hcad
        exact hcad
    exact ⟨hopen.ticks hf hint, hopen.rounds⟩

/-- At a frame rate of which three quarters can be taken in an `int`, every stay in ESTABLISHED keeps
the cadence, however long it is and whatever arrives in it. -/
theorem established_cadence (t : MasterTunables) (placeholder : SceneBody) (src : Mac)
    (cfg : Option ConsoleCfg) (fps : ℤ) (hfps : 400 ≤ fps) (hint : 3 * fps < 2147483648)
    (hest : t.estScene = false) (is : List (HeadampTx × OwnerInput)) :
    ∃ starts, KeepsCadence fps starts
      (staySlots ((ownerMachine t).trace (masterInit t placeholder src cfg fps) is)) := by
  have hinit : initFps fps = fps := by
    unfold initFps
    rw [if_pos (by omega)]
  obtain ⟨blk, desc, heq⟩ := masterInit_eq t placeholder src cfg fps
  have hstart : StayInv (geometry t fps) [] (masterInit t placeholder src cfg fps) := by
    rw [heq, hinit]
    exact ⟨rfl, [], keepsCadence_nil _, nofun⟩
  have hinv := (ownerMachine t).trace_invariant (L := fun _ _ => True) hstart
    (fun log m i h _ => h.step hest hfps hint rfl i) is (fun _ _ _ => trivial)
  obtain ⟨starts, hkeeps, -⟩ := hinv.stay
  exact ⟨starts, hkeeps⟩

/-- A desk at 400 slots a second. -/
def leisurelyMaster : Master := masterInit {} (Vector.replicate 8904 0) (Vector.replicate 6 1) none 400

/-- A box of one input armed by hand, and the slots of a stay of a second and a quarter. -/
def leisurelyRun : List (HeadampTx × OwnerInput) :=
  (headampTxInit, .call (.setBox 1 0 8)) :: (headampTxInit, .call .regrant) ::
    List.replicate 660 (headampTxInit, .call .next)

set_option maxRecDepth 20000 in
/-- Both keep-alives and a round of the re-poll go out in it. -/
theorem established_cadence_leisurely :
    let slots := staySlots ((ownerMachine {}).trace leisurelyMaster leisurelyRun)
    (∃ starts, KeepsCadence 400 starts slots) ∧ slots.length = 506 ∧
      (slots.map Prod.snd).filter (fun s => s ≠ .plain .filler) =
        .plain .announce :: (List.range 6).map (fun k => ⟨.identityPoll, k⟩) ++
          [⟨.chanmap, 0⟩, .plain .announce] :=
  ⟨established_cadence {} _ _ _ 400 (by omega) (by omega) rfl _, by decide +kernel⟩

/-! ## A rate at which the product wraps -/

/-- A desk at 2^30 slots a second, of which three quarters wrap to less than nothing. -/
def hastyMaster : Master :=
  masterInit {} (Vector.replicate 8904 0) (Vector.replicate 6 1) none 1073741824

/-- A box of one input armed by hand, up to the slot that delivers its sweep. -/
def hastyWindow : List (HeadampTx × OwnerInput) :=
  (headampTxInit, .call (.setBox 1 0 0)) :: (headampTxInit, .call .regrant) ::
    List.replicate 134 (headampTxInit, .call .next)

/-- A frame of the box and a slot. -/
def fedSlot : List (HeadampTx × OwnerInput) :=
  [(headampTxInit, .call (.rx .heartbeat noMac none)), (headampTxInit, .call .next)]

/-- A stay of `n` slots, counted by the announce's tick, which has started below zero. -/
structure HastyStay (n : ℕ) (m : Master) : Prop where
  state : m.state = .established
  unbound : m.boxMac = noMac
  geo : m.geo = geometry {} 1073741824
  tick : m.cad.announceTick = n - 268435456

/-- A slot before the announce's tick is up carries none. -/
theorem lockedCadence_early {c : Cadence} (g : Geometry) (complete : Bool) (pos : ℤ)
    (h : c.announceTick < g.fps) :
    (lockedCadence {} g complete pos c).1.announceTick = c.announceTick ∧
      (lockedCadence {} g complete pos c).2.emit ≠ .announce := by
  unfold lockedCadence
  dsimp only
  rw [if_neg (by omega)]
  simp only [Bool.false_eq_true, if_false]
  split_ifs
  · exact ⟨rfl, nofun⟩
  · unfold identityPoll
    split_ifs <;> exact ⟨rfl, nofun⟩

theorem HastyStay.heard (h : HastyStay n m) :
    let m' := (masterRx headampTxInit m .heartbeat noMac none).1
    HastyStay n m' ∧ m'.linkCheck = 107374182 := by
  have hbudget := (masterRx_budget headampTxInit h.state .heartbeat noMac none).1
  have hacc : m.peerAccepts noMac .heartbeat = true := by
    unfold Master.peerAccepts
    rw [if_neg (by simp [h.state]), if_pos (.inl h.unbound)]
  have hmove := masterRx_move headampTxInit m .heartbeat noMac none
  rw [if_pos hacc, h.geo] at hbudget
  generalize masterRx headampTxInit m .heartbeat noMac none = r at hmove hbudget
  obtain ⟨m', changed⟩ := r
  dsimp only at hmove hbudget ⊢
  have hsame : ∀ {m₁ : Master}, Heard m m₁ → HastyStay n m₁ := by
    intro m₁ h₁
    obtain ⟨seen, lc, rfl⟩ := h₁.of_ne_idle (by rw [h.state]; decide)
    exact ⟨h.state, h.unbound, h.geo, h.tick⟩
  cases hmove with
  | refused hno => exact absurd (hacc.symm.trans hno) (by decide)
  | stay _ h₁ => exact ⟨hsame h₁, hbudget (hsame h₁).state⟩
  | held h₁ hs | latch h₁ hs | accept _ h₁ hs => exact absurd ((hsame h₁).state.symm.trans hs) (by decide)
  | relatch _ _ hev | bye _ _ _ hev => cases hev

theorem HastyStay.slot (h : HastyStay n m) (hn : n < 1073741824) (hlink : m.linkCheck = 107374182) :
    HastyStay (n + 1) (masterNext {} headampTxInit m).1 ∧
      (masterNext {} headampTxInit m).2.emit ≠ .announce := by
  have htick := h.tick
  have hlocked : controlCadence {} m = lockedCadence {} m.geo m.identityComplete m.cad.cyclePos
      { m.cad with
        cyclePos := (m.cad.cyclePos + 1).tmod m.geo.cycleLen
        announceTick := m.cad.announceTick + 1 } := by
    unfold controlCadence
    rw [if_pos h.state]
  have hearly := lockedCadence_early m.geo m.identityComplete m.cad.cyclePos (c := { m.cad with
    cyclePos := (m.cad.cyclePos + 1).tmod m.geo.cycleLen, announceTick := m.cad.announceTick + 1 })
    (by rw [show m.geo.fps = 1073741824 by rw [h.geo]; rfl]; dsimp only; omega)
  rw [← hlocked] at hearly
  obtain ⟨hslot, hcad⟩ := masterNext_stay (t := {}) headampTxInit rfl h.state
  have hmove := masterNext_move {} headampTxInit m
  generalize masterNext {} headampTxInit m = r at hmove hslot hcad ⊢
  obtain ⟨m', s⟩ := r
  dsimp only at hmove hslot hcad ⊢
  refine ⟨?_, by rw [hslot]; exact hearly.2⟩
  have hsame : ∀ {m₀ : Master}, Ticked m m₀ → HastyStay n m₀ ∧ m₀.linkCheck = 107374182 := by
    intro m₀ h₀
    obtain ⟨seen, tick, rfl⟩ := h₀.of_ne_idle (by rw [h.state]; decide)
    exact ⟨⟨h.state, h.unbound, h.geo, h.tick⟩, hlink⟩
  cases hmove with
  | hunt h₀ hs₀ | grant h₀ hs₀ | delivered h₀ hs₀ | wait h₀ hs₀ | boxUnknown h₀ hs₀ =>
    exact absurd ((hsame h₀).1.state.symm.trans hs₀) (by decide)
  | locked h₀ hs₀ hc =>
    have hscene := controlCadence_not_scene (t := {}) rfl h.state
    rw [← hslot] at hscene
    rw [sceneAccount_of_not_scene _ _ hscene] at hcad ⊢
    obtain ⟨hstay, -⟩ := hsame h₀
    have hcad' := congrArg Cadence.announceTick (hcad hs₀)
    refine ⟨hs₀, hstay.unbound, hstay.geo, hcad'.trans (hearly.1.trans ?_)⟩
    push_cast
    omega
  | lost h₀ _ _ lc _ _ _ hlc hleft =>
    have hfull := (hsame h₀).2
    omega

/-- Whatever the length of the stay, up to a whole second no slot of it carries an announce. -/
theorem hasty_stay (n : ℕ) (hn : n ≤ 1073741824) :
    let is := hastyWindow ++ (List.replicate n fedSlot).flatten
    HastyStay n ((ownerMachine {}).run hastyMaster is) ∧
      (staySlots ((ownerMachine {}).trace hastyMaster is)).length = n ∧
      ∀ x ∈ staySlots ((ownerMachine {}).trace hastyMaster is), x.2.emit ≠ .announce := by
  dsimp only
  induction n with
  | zero =>
    rw [List.replicate_zero, List.flatten_nil, List.append_nil]
    refine ⟨⟨by decide +kernel, by decide +kernel, by decide +kernel, by decide +kernel⟩,
      by decide +kernel, ?_⟩
    decide +kernel
  | succ n ih =>
    obtain ⟨hstay, hlen, hnone⟩ := ih (by omega)
    rw [List.replicate_succ', List.flatten_concat, ← List.append_assoc]
    generalize hastyWindow ++ (List.replicate n fedSlot).flatten = is at hstay hlen hnone ⊢
    obtain ⟨hheard, hlink⟩ := hstay.heard
    obtain ⟨hnext, hemit⟩ := hheard.slot (by omega) hlink
    rw [Reactive.Machine.run_append, Reactive.Machine.trace_append]
    generalize (ownerMachine {}).run hastyMaster is = m at *
    generalize (ownerMachine {}).trace hastyMaster is = log at *
    have htrace : staySlots (log ++ (ownerMachine {}).trace m fedSlot) =
        staySlots log ++ [((masterRx headampTxInit m .heartbeat noMac none).1.identityComplete,
          (masterNext {} headampTxInit (masterRx headampTxInit m .heartbeat noMac none).1).2)] := by
      have hsplit : log ++ (ownerMachine {}).trace m fedSlot =
          log ++ [(ownerMachine {}).event m (headampTxInit, .call (.rx .heartbeat noMac none))] ++
            [(ownerMachine {}).event (masterRx headampTxInit m .heartbeat noMac none).1
              (headampTxInit, .call .next)] := by
        rw [List.append_assoc]
        rfl
      rw [hsplit, staySlots_concat_of_eq hheard.state, staySlots_concat_of_eq hstay.state]
      exact congrArg (· ++ _) (List.append_nil _)
    rw [htrace]
    refine ⟨hnext, by simp [hlen], ?_⟩
    intro x hx
    rcases List.mem_append.mp hx with hx | hx
    · exact hnone x hx
    · obtain rfl := List.mem_singleton.mp hx
      exact hemit

/-- So a stay of a whole second, in which the box is heard before every slot, keeps no cadence. -/
theorem announce_late :
    let slots := staySlots ((ownerMachine {}).trace hastyMaster
      (hastyWindow ++ (List.replicate 1073741824 fedSlot).flatten))
    slots.length = 1073741824 ∧ (∀ x ∈ slots, x.2.emit ≠ .announce) ∧
      ¬ ∃ starts, KeepsCadence 1073741824 starts slots := by
  obtain ⟨-, hlen, hnone⟩ := hasty_stay 1073741824 (by omega)
  dsimp only
  generalize staySlots ((ownerMachine {}).trace hastyMaster
    (hastyWindow ++ (List.replicate 1073741824 fedSlot).flatten)) = slots at hlen hnone ⊢
  refine ⟨hlen, hnone, ?_⟩
  rintro ⟨starts, hkeeps⟩
  -- The announce is due a quarter of a second in.
  obtain ⟨⟨complete, s⟩, hat⟩ : ∃ x, slots[268435455]? = some x :=
    ⟨_, List.getElem?_eq_getElem (by omega)⟩
  have hdue := (hkeeps.keeps _ _ _ hat).announce.mpr (by decide)
  exact hnone _ (List.mem_of_getElem? hat) hdue

end Libreac
