import Libreac.Machine
import Libreac.Proofs.DiscoProofs

/-!
# Proofs: the table behind the gate

Two tables hear the same wire: one takes every sighting, the other only those the gate passes. They
agree on a peer as long as the gate's memory of it is the table's: no frame it holds back is wider,
no role is noted that the table refuses, and a peer that was withdrawn comes back telling again what
the gate remembers.
-/

namespace Libreac

open Reactive

/-- A sighting, with whether its peer is ours at that time, or an aging pass. -/
inductive DiscoInput where
  | sight (s : Sighting) (owned : Bool) (now : ℕ)
  | age (now : ℕ)

/-- The time of an input. -/
def DiscoInput.time : DiscoInput → ℕ
  | .sight _ _ now => now
  | .age now => now

/-- The gate, the table behind it and the table that takes everything. -/
structure Twin where
  gate : DiscoGate := Roster.empty
  gated : DiscoTable := {}
  every : DiscoTable := {}
  clock : ℕ := 0

/-- What a sighting did: whether the gate passed it, and whether that changed the table behind it. -/
structure TwinOut where
  passed : Bool := false
  changed : Bool := false

/-- One input to both tables. -/
def twinStep (w : Twin) : DiscoInput → Twin × TwinOut
  | .sight s owned now =>
    let g := gateShouldPush w.gate s now
    let t := if g.2 then tableObserve w.gated s owned now else (w.gated, false)
    ({ gate := g.1, gated := t.1, every := (tableObserve w.every s owned now).1, clock := now },
      { passed := g.2, changed := t.2 })
  | .age now =>
    ({ w with gated := tableAge w.gated now, every := tableAge w.every now, clock := now }, {})

/-- The two tables as a machine. -/
def twinMachine : Machine Twin DiscoInput TwinOut := ⟨twinStep⟩

@[simp] theorem twinMachine_step (w : Twin) (i : DiscoInput) : twinMachine.step w i = twinStep w i := rfl

/-- A step of the two tables. -/
abbrev TwinEvent := Event Twin DiscoInput TwinOut

/-! ## One sighting -/

/-- The sighting lets the gate remember what the table remembers. A frame that is held back is no
wider than what the table has; a peer the table holds as a box does not speak as a master; and a peer
the table has withdrawn says at least what the gate still knows, as wide as ever. -/
structure Told (w : Twin) (s : Sighting) (now : ℕ) : Prop where
  width : ∀ g ∈ w.gate.find s.mac, g.edge s = false → g.refreshDue now = false →
    ∀ t ∈ w.gated.peers.find s.mac, s.channels ≤ t.channels
  role : ∀ t ∈ w.gated.peers.find s.mac, ¬ t.refuses s
  back : ∀ g ∈ w.gate.find s.mac, w.gated.peers.find s.mac = none →
    g.facts.tell s.facts = s.facts ∧
      ∀ u ∈ w.every.peers.find s.mac, ¬ u.refuses s ∧ u.channels ≤ s.channels

/-- The two tables know the same of every peer, and so does the gate; a peer the gate knows and the
table behind it does not has been silent for too long. -/
structure Paired (macs : List Mac) (w : Twin) : Prop where
  within : ∀ m g, w.gate.find m = some g → m ∈ macs
  past : ∀ m g, w.gate.find m = some g → g.lastPush ≤ w.clock
  lost : ∀ m g, w.gate.find m = some g → w.gated.peers.find m = none →
    g.lastPush + discoStaleNs < w.clock
  every : ∀ m u, w.every.peers.find m = some u → ∃ g, w.gate.find m = some g ∧ u.facts = g.facts ∧
    g.lastPush ≤ u.lastSeen ∧ u.lastSeen < g.lastPush + discoRefreshNs
  gated : ∀ m t, w.gated.peers.find m = some t → ∃ g u, w.gate.find m = some g ∧
    w.every.peers.find m = some u ∧ t.facts = u.facts ∧ t.channels = u.channels ∧
    t.lastSeen = g.lastPush

theorem paired_empty (macs : List Mac) : Paired macs {} :=
  ⟨nofun, nofun, nofun, nofun, nofun⟩

/-- What the gate and the two tables hold of a peer right after its sighting. -/
structure Sighted (g : GateEntry) (t u : DiscoEntry) (now : ℕ) : Prop where
  told : t.facts = g.facts
  same : u.facts = g.facts
  channels : t.channels = u.channels
  pushed : t.lastSeen = g.lastPush
  seen : u.lastSeen = now
  past : g.lastPush ≤ now
  window : now < g.lastPush + discoRefreshNs

section Sight

variable {macs : List Mac} {w : Twin} {s : Sighting} {now : ℕ}

theorem Paired.every_within (h : Paired macs w) {m : Mac} (hm : w.every.peers.find m ≠ none) :
    m ∈ macs := by
  obtain ⟨u, hu⟩ := Option.ne_none_iff_exists'.mp hm
  obtain ⟨g, hg, -⟩ := h.every m u hu
  exact h.within m g hg

theorem Paired.gated_within (h : Paired macs w) {m : Mac} (hm : w.gated.peers.find m ≠ none) :
    m ∈ macs := by
  obtain ⟨t, ht⟩ := Option.ne_none_iff_exists'.mp hm
  obtain ⟨g, -, hg, -⟩ := h.gated m t ht
  exact h.within m g hg

/-- There is room for every peer of the segment. -/
theorem Paired.room (h : Paired macs w) (hlen : macs.length ≤ discoMax) (hs : s.mac ∈ macs) :
    (w.gate.find s.mac = none → w.gate.full = false) ∧
      (w.gated.peers.find s.mac = none → w.gated.peers.full = false) ∧
      (w.every.peers.find s.mac = none → w.every.peers.full = false) := by
  refine ⟨?_, ?_, ?_⟩
  · apply Roster.full_eq_false hlen _ hs
    intro m hm
    obtain ⟨g, hg⟩ := Option.ne_none_iff_exists'.mp hm
    exact h.within m g hg
  · exact Roster.full_eq_false hlen (fun m => h.gated_within) hs
  · exact Roster.full_eq_false hlen (fun m => h.every_within) hs

/-- A refresh is due once the table has had time to withdraw the peer. -/
theorem refreshDue_of_lost {g : GateEntry} (h : g.lastPush + discoStaleNs < now) :
    g.refreshDue now = true := by
  rw [refreshDue_iff]
  simp only [discoStaleNs] at h
  simp only [discoRefreshNs]
  omega

/-- After its sighting a peer is in both tables, and they and the gate know the same of it. A sighting
that passes is the first one, a refresh, or one that has changed the table behind the gate. -/
def Hears (w : Twin) (s : Sighting) (owned : Bool) (now : ℕ) : Prop :=
  ∃ g t u, (∀ m, (twinStep w (.sight s owned now)).1.gate.find m =
      if m = s.mac then some g else w.gate.find m) ∧
    (∀ m, (twinStep w (.sight s owned now)).1.gated.peers.find m =
      if m = s.mac then some t else w.gated.peers.find m) ∧
    (∀ m, (twinStep w (.sight s owned now)).1.every.peers.find m =
      if m = s.mac then some u else w.every.peers.find m) ∧
    Sighted g t u now ∧
    ((twinStep w (.sight s owned now)).2.passed = true → w.gate.find s.mac = none ∨
      (∃ g₀, w.gate.find s.mac = some g₀ ∧ g₀.lastPush + discoRefreshNs ≤ now) ∨
      (twinStep w (.sight s owned now)).2.changed = true)

/-- A peer of the table behind the gate is in the other one too, and all three agree on it. -/
theorem Paired.known (h : Paired macs w) {m : Mac} {g : GateEntry} {t : DiscoEntry}
    (hg : w.gate.find m = some g) (hT : w.gated.peers.find m = some t) :
    ∃ u, w.every.peers.find m = some u ∧ t.facts = g.facts ∧ u.facts = g.facts ∧
      t.channels = u.channels ∧ t.lastSeen = g.lastPush := by
  obtain ⟨g₀, u, hg₀, hU, htu, hch, hlast⟩ := h.gated _ t hT
  obtain ⟨g₁, hg₁, hug, -⟩ := h.every _ u hU
  rw [hg] at hg₀ hg₁
  obtain rfl := Option.some.inj hg₀
  obtain rfl := Option.some.inj hg₁
  exact ⟨u, hU, htu.trans hug, hug, hch, hlast⟩

theorem not_refuses_of_facts {t u : DiscoEntry} (h : t.facts = u.facts) (ht : ¬ t.refuses s) :
    ¬ u.refuses s := by
  have hrole : t.role = u.role := congrArg Facts.role h
  rwa [DiscoEntry.refuses, hrole] at ht

theorem hears_first (h : Paired macs w) (hlen : macs.length ≤ discoMax) (hs : s.mac ∈ macs)
    (hg : w.gate.find s.mac = none) (owned : Bool) : Hears w s owned now := by
  obtain ⟨hroomG, hroomT, hroomU⟩ := h.room hlen hs
  have hT : w.gated.peers.find s.mac = none := by
    by_contra hn
    obtain ⟨t, ht⟩ := Option.ne_none_iff_exists'.mp hn
    obtain ⟨g, -, hg', -⟩ := h.gated _ t ht
    simp [hg] at hg'
  have hU : w.every.peers.find s.mac = none := by
    by_contra hn
    obtain ⟨u, hu⟩ := Option.ne_none_iff_exists'.mp hn
    obtain ⟨g, hg', -⟩ := h.every _ u hu
    simp [hg] at hg'
  obtain ⟨hpass, hfind⟩ := gateShouldPush_new hg (hroomG hg) now
  refine ⟨gateEntryOf s now, discoEntryOf s owned now, discoEntryOf s owned now, hfind, ?_,
    (tableObserve_new hU (hroomU hU) owned now).2, ?_, fun _ => .inl hg⟩
  · simp only [twinStep, hpass, if_true]
    exact (tableObserve_new hT (hroomT hT) owned now).2
  · exact ⟨rfl, rfl, rfl, rfl, rfl, Nat.le_refl now, Nat.lt_add_of_pos_right (by decide)⟩

/-- A frame that is held back reaches the other table only. -/
theorem hears_held (h : Paired macs w) (htime : w.clock ≤ now) (ht : Told w s now) {g : GateEntry}
    (hg : w.gate.find s.mac = some g) (hedge : g.edge s = false) (hdue : g.refreshDue now = false)
    (owned : Bool) : Hears w s owned now := by
  obtain ⟨hpass, g', hfind, hfacts, hpush⟩ := gateShouldPush_known hg now
  simp only [hedge, hdue, Bool.or_self, Bool.false_eq_true, if_false] at hpass hpush
  have hnear : g.lastPush ≤ now ∧ now < g.lastPush + discoRefreshNs := by
    have hnot := mt (refreshDue_iff g now).mpr (by simp [hdue])
    omega
  have hkept : w.gated.peers.find s.mac ≠ none := by
    intro hT
    rw [refreshDue_of_lost (Nat.lt_of_lt_of_le (h.lost _ g hg hT) htime)] at hdue
    cases hdue
  obtain ⟨t, hT⟩ := Option.ne_none_iff_exists'.mp hkept
  obtain ⟨u, hU, htg, hug, hch, hlast⟩ := h.known hg hT
  have hrefuses := not_refuses_of_facts (htg.trans hug.symm) (ht.role t hT)
  have htell : g.facts.tell s.facts = g.facts := by
    by_contra hne
    rw [(edge_iff g s).mpr hne] at hedge
    cases hedge
  have hwide := ht.width g hg hedge hdue t hT
  refine ⟨g', t, u.sharpen s owned now, hfind, ?_, (tableObserve_known hU owned now).2, ?_, ?_⟩
  · intro m
    simp only [twinStep, hpass, Bool.false_eq_true, if_false]
    split_ifs with hm
    · rw [hm, hT]
    · rfl
  · refine ⟨?_, ?_, ?_, hlast.trans hpush.symm, rfl, by omega, by omega⟩
    · rw [htg, hfacts, htell]
    · rw [sharpen_facts hrefuses, hug, hfacts]
    · rw [sharpen_channels, ← hch]
      omega
  · intro hp
    simp [twinStep, hpass] at hp

/-- A frame that passes reaches a peer both tables hold. -/
theorem hears_passed (h : Paired macs w) (htime : w.clock ≤ now) (ht : Told w s now) {g : GateEntry}
    (hg : w.gate.find s.mac = some g) (hgo : (g.edge s || g.refreshDue now) = true) {t : DiscoEntry}
    (hT : w.gated.peers.find s.mac = some t) (owned : Bool) : Hears w s owned now := by
  obtain ⟨hpass, g', hfind, hfacts, hpush⟩ := gateShouldPush_known hg now
  rw [hgo, if_pos rfl] at hpush
  rw [hgo] at hpass
  obtain ⟨u, hU, htg, hug, hch, -⟩ := h.known hg hT
  have hrefuses := ht.role t hT
  have hrefuses' := not_refuses_of_facts (htg.trans hug.symm) hrefuses
  obtain ⟨hchanged, hgated⟩ := tableObserve_known hT owned now
  refine ⟨g', t.sharpen s owned now, u.sharpen s owned now, hfind, ?_,
    (tableObserve_known hU owned now).2, ?_, ?_⟩
  · simp only [twinStep, hpass, if_true]
    exact hgated
  · refine ⟨?_, ?_, ?_, hpush.symm, rfl, Nat.le_of_eq hpush, ?_⟩
    · rw [sharpen_facts hrefuses, htg, hfacts]
    · rw [sharpen_facts hrefuses', hug, hfacts]
    · rw [sharpen_channels, sharpen_channels, hch]
    · rw [hpush]
      exact Nat.lt_add_of_pos_right (by decide)
  · intro _
    right
    by_cases hdue : g.lastPush + discoRefreshNs ≤ now
    · exact .inl ⟨g, hg, hdue⟩
    · -- Inside the window it passes as an edge, which the table takes too.
      right
      have hpast := h.past _ g hg
      have hnot : g.refreshDue now = false := by
        rw [Bool.eq_false_iff, Ne, refreshDue_iff]
        omega
      have hedge : g.edge s = true := by simpa [hnot] using hgo
      have htell := (edge_iff g s).mp hedge
      rw [← htg] at htell
      simp only [twinStep, hpass, if_true, hchanged]
      exact changes_of_tell hrefuses htell owned

/-- A peer that was withdrawn enters the table anew, with what it says now. -/
theorem hears_back (h : Paired macs w) (hlen : macs.length ≤ discoMax) (hs : s.mac ∈ macs)
    (htime : w.clock ≤ now) (ht : Told w s now) {g : GateEntry} (hg : w.gate.find s.mac = some g)
    (hT : w.gated.peers.find s.mac = none) (owned : Bool) : Hears w s owned now := by
  obtain ⟨-, hroomT, hroomU⟩ := h.room hlen hs
  obtain ⟨hall, hevery⟩ := ht.back g hg hT
  have hlost := Nat.lt_of_lt_of_le (h.lost _ g hg hT) htime
  obtain ⟨hpass, g', hfind, hfacts, hpush⟩ := gateShouldPush_known hg now
  rw [refreshDue_of_lost hlost, Bool.or_true, if_pos rfl] at hpush
  rw [refreshDue_of_lost hlost, Bool.or_true] at hpass
  have hdue : g.lastPush + discoRefreshNs ≤ now := by
    simp only [discoStaleNs] at hlost
    simp only [discoRefreshNs]
    omega
  have hstep : ∀ m, (twinStep w (.sight s owned now)).1.gated.peers.find m =
      if m = s.mac then some (discoEntryOf s owned now) else w.gated.peers.find m := by
    simp only [twinStep, hpass, if_true]
    exact (tableObserve_new hT (hroomT hT) owned now).2
  have htold : (discoEntryOf s owned now).facts = g'.facts := by
    rw [hfacts, hall]
    rfl
  have hwindow : now < g'.lastPush + discoRefreshNs := by
    rw [hpush]
    exact Nat.lt_add_of_pos_right (by decide)
  cases hU : w.every.peers.find s.mac with
  | none =>
    refine ⟨g', discoEntryOf s owned now, discoEntryOf s owned now, hfind, hstep,
      (tableObserve_new hU (hroomU hU) owned now).2, ?_, fun _ => .inr (.inl ⟨g, hg, hdue⟩)⟩
    exact ⟨htold, htold, rfl, hpush.symm, rfl, Nat.le_of_eq hpush, hwindow⟩
  | some u =>
    obtain ⟨g₁, hg₁, hug, -⟩ := h.every _ u hU
    rw [hg] at hg₁
    obtain rfl := Option.some.inj hg₁
    obtain ⟨hrefuses, hwide⟩ := hevery u hU
    refine ⟨g', discoEntryOf s owned now, u.sharpen s owned now, hfind, hstep,
      (tableObserve_known hU owned now).2, ?_, fun _ => .inr (.inl ⟨g, hg, hdue⟩)⟩
    refine ⟨htold, ?_, ?_, hpush.symm, rfl, Nat.le_of_eq hpush, hwindow⟩
    · rw [sharpen_facts hrefuses, hug, hfacts]
    · rw [sharpen_channels, Nat.max_eq_right hwide]
      rfl

theorem twinStep_hears (h : Paired macs w) (hlen : macs.length ≤ discoMax) (hs : s.mac ∈ macs)
    (htime : w.clock ≤ now) (ht : Told w s now) (owned : Bool) : Hears w s owned now := by
  cases hg : w.gate.find s.mac with
  | none => exact hears_first h hlen hs hg owned
  | some g =>
    cases hgo : (g.edge s || g.refreshDue now) with
    | false =>
      obtain ⟨hedge, hdue⟩ := Bool.or_eq_false_iff.mp hgo
      exact hears_held h htime ht hg hedge hdue owned
    | true =>
      cases hT : w.gated.peers.find s.mac with
      | none => exact hears_back h hlen hs htime ht hg hT owned
      | some t => exact hears_passed h htime ht hg hgo hT owned

theorem Paired.sight (h : Paired macs w) (hs : s.mac ∈ macs) (htime : w.clock ≤ now) {owned : Bool}
    (hh : Hears w s owned now) : Paired macs (twinStep w (.sight s owned now)).1 := by
  obtain ⟨g, t, u, hG, hT, hU, hnew, -⟩ := hh
  refine ⟨?_, ?_, ?_, ?_, ?_⟩
  · intro m g' hg'
    rw [hG] at hg'
    split_ifs at hg' with hm
    · rw [hm]
      exact hs
    · exact h.within m g' hg'
  · intro m g' hg'
    rw [hG] at hg'
    split_ifs at hg' with hm
    · rw [← Option.some.inj hg']
      exact hnew.past
    · exact Nat.le_trans (h.past m g' hg') htime
  · intro m g' hg' hlost
    rw [hG] at hg'
    rw [hT] at hlost
    split_ifs at hg' hlost with hm
    exact Nat.lt_of_lt_of_le (h.lost m g' hg' hlost) htime
  · intro m u' hu'
    rw [hU] at hu'
    rw [hG]
    split_ifs at hu' ⊢ with hm
    · rw [← Option.some.inj hu']
      refine ⟨g, rfl, hnew.same, ?_, ?_⟩
      · rw [hnew.seen]
        exact hnew.past
      · rw [hnew.seen]
        exact hnew.window
    · exact h.every m u' hu'
  · intro m t' ht'
    rw [hT] at ht'
    rw [hG, hU]
    split_ifs at ht' ⊢ with hm
    · rw [← Option.some.inj ht']
      exact ⟨g, u, rfl, rfl, hnew.told.trans hnew.same.symm, hnew.channels, hnew.pushed⟩
    · exact h.gated m t' ht'

/-- Aging withdraws a peer from the table behind the gate first. -/
theorem Paired.age (h : Paired macs w) (htime : w.clock ≤ now) :
    Paired macs (twinStep w (.age now)).1 := by
  have hT : ∀ m, (twinStep w (.age now)).1.gated.peers.find m =
      (w.gated.peers.find m).filter fun e => !e.stale now := tableAge_find w.gated now
  have hU : ∀ m, (twinStep w (.age now)).1.every.peers.find m =
      (w.every.peers.find m).filter fun e => !e.stale now := tableAge_find w.every now
  refine ⟨h.within, fun m g hg => Nat.le_trans (h.past m g hg) htime, ?_, ?_, ?_⟩
  · intro m g hg hlost
    rw [hT, Option.filter_eq_none_iff] at hlost
    cases ht : w.gated.peers.find m with
    | none => exact Nat.lt_of_lt_of_le (h.lost m g hg ht) htime
    | some t =>
      have hstale := hlost t ht
      simp only [Bool.not_eq_true', Bool.not_eq_false, stale_iff] at hstale
      obtain ⟨u, -, -, -, -, hlast⟩ := h.known hg ht
      rw [← hlast]
      exact hstale
  · intro m u hu
    rw [hU, Option.filter_eq_some_iff] at hu
    exact h.every m u hu.1
  · intro m t ht
    rw [hT, Option.filter_eq_some_iff] at ht
    obtain ⟨ht, hfresh⟩ := ht
    obtain ⟨g, u, hg, hu, hfacts, hch, hlast⟩ := h.gated m t ht
    refine ⟨g, u, hg, ?_, hfacts, hch, hlast⟩
    rw [hU, Option.filter_eq_some_iff]
    refine ⟨hu, ?_⟩
    -- The other table has heard the peer no earlier.
    obtain ⟨g', hg', -, hseen, -⟩ := h.every m u hu
    have hg'' : w.gate.find m = some g := hg
    rw [hg''] at hg'
    obtain rfl := Option.some.inj hg'
    have hkeep : t.stale now = false := by simpa using hfresh
    rw [Bool.eq_false_iff, Ne, stale_iff] at hkeep
    simp only [Bool.not_eq_true', Bool.eq_false_iff, Ne, stale_iff]
    omega

end Sight

/-! ## Runs -/

/-- A step of a run on the segment `macs`: time does not run back, the peer is one of them, and its
sighting lets the gate remember what the table does. -/
def TwinLegal (macs : List Mac) (w : Twin) (i : DiscoInput) : Prop :=
  w.clock ≤ i.time ∧ ∀ s owned now, i = .sight s owned now → s.mac ∈ macs ∧ Told w s now

/-- A peer heard within the refresh window stands in both tables with the same facts. -/
def Agrees (w : Twin) : Prop :=
  ∀ m u, w.every.peers.find m = some u → w.clock < u.lastSeen + discoRefreshNs →
    ∃ t, w.gated.peers.find m = some t ∧ t.role = u.role ∧ t.decl = u.decl ∧
      t.announcedSlots = u.announcedSlots ∧ t.channels = u.channels

/-- Every peer sighted so far is known to the gate. -/
def GateRemembers (log : List TwinEvent) (w : Twin) : Prop :=
  ∀ e ∈ log, ∀ s owned now, e.input = .sight s owned now → w.gate.find s.mac ≠ none

theorem gateRemembers_nil (w : Twin) : GateRemembers [] w := by
  intro e he
  cases he

/-- What the gate passes is a first sighting of its peer, a refresh, or a change of the table. -/
def PassesOnlyNews (log : List TwinEvent) (e : TwinEvent) : Prop :=
  ∀ s owned now, e.input = .sight s owned now → e.out.passed = true →
    (∀ e' ∈ log, ∀ s' owned' now', e'.input = .sight s' owned' now' → s'.mac ≠ s.mac) ∨
    (∃ g, e.pre.gate.find s.mac = some g ∧ g.lastPush + discoRefreshNs ≤ now) ∨
    e.out.changed = true

section Runs

variable {macs : List Mac} {w : Twin}

theorem Paired.agrees (h : Paired macs w) : Agrees w := by
  intro m u hu hnow
  obtain ⟨g, hg, -, -, hwindow⟩ := h.every m u hu
  have hkept : w.gated.peers.find m ≠ none := by
    intro hlost
    have hold := h.lost m g hg hlost
    simp only [discoStaleNs] at hold
    simp only [discoRefreshNs] at hnow hwindow
    omega
  obtain ⟨t, ht⟩ := Option.ne_none_iff_exists'.mp hkept
  obtain ⟨u', hu', htg, hug, hch, -⟩ := h.known hg ht
  rw [hu] at hu'
  obtain rfl := Option.some.inj hu'
  have hfacts := htg.trans hug.symm
  exact ⟨t, ht, congrArg Facts.role hfacts, congrArg Facts.decl hfacts, congrArg Facts.slots hfacts,
    hch⟩

theorem Paired.step (h : Paired macs w) (hlen : macs.length ≤ discoMax) {i : DiscoInput}
    (hl : TwinLegal macs w i) : Paired macs (twinStep w i).1 := by
  cases i with
  | age now => exact h.age hl.1
  | sight s owned now =>
    obtain ⟨hs, ht⟩ := hl.2 s owned now rfl
    exact h.sight hs hl.1 (twinStep_hears h hlen hs hl.1 ht owned)

theorem GateRemembers.step {log : List TwinEvent} (hr : GateRemembers log w) (h : Paired macs w)
    (hlen : macs.length ≤ discoMax) {i : DiscoInput} (hl : TwinLegal macs w i) :
    GateRemembers (log ++ [twinMachine.event w i]) (twinStep w i).1 := by
  intro e he s owned now hi
  cases i with
  | age now' =>
    rcases List.mem_append.mp he with he | he
    · exact hr e he s owned now hi
    · rw [List.mem_singleton.mp he] at hi
      cases hi
  | sight s' owned' now' =>
    obtain ⟨hs, ht⟩ := hl.2 s' owned' now' rfl
    have htime : w.clock ≤ now' := hl.1
    obtain ⟨g, -, -, hG, -⟩ := twinStep_hears h hlen hs htime ht owned'
    rw [hG]
    split_ifs with hm
    · nofun
    · rcases List.mem_append.mp he with he | he
      · exact hr e he s owned now hi
      · rw [List.mem_singleton.mp he] at hi
        cases hi
        exact absurd rfl hm

theorem passesOnlyNews {log : List TwinEvent} (hr : GateRemembers log w) (h : Paired macs w)
    (hlen : macs.length ≤ discoMax) {i : DiscoInput} (hl : TwinLegal macs w i) :
    PassesOnlyNews log (twinMachine.event w i) := by
  intro s owned now hi hpassed
  cases hi
  obtain ⟨hs, ht⟩ := hl.2 s owned now rfl
  have htime : w.clock ≤ now := hl.1
  obtain ⟨g, -, -, -, -, -, -, hnews⟩ := twinStep_hears h hlen hs htime ht owned
  rcases hnews hpassed with hfirst | hrest
  · left
    intro e' he' s' owned' now' hi' hsame
    apply hr e' he' s' owned' now' hi'
    rw [hsame]
    exact hfirst
  · exact .inr hrest

end Runs

/-- Behind the gate nothing is lost of a segment of at most eight peers, and only news passes it. -/
theorem gate_exact {macs : List Mac} (hlen : macs.length ≤ discoMax) {is : List DiscoInput}
    (hl : ∀ log e, twinMachine.StepOf {} is log e → TwinLegal macs e.pre e.input) :
    ∀ log e, twinMachine.StepOf {} is log e → Agrees e.post ∧ PassesOnlyNews log e := by
  intro log e he
  have hstep : ∀ log w i, Paired macs w ∧ GateRemembers log w → TwinLegal macs w i →
      Paired macs (twinStep w i).1 ∧
        GateRemembers (log ++ [twinMachine.event w i]) (twinStep w i).1 := by
    intro log w i h hl
    exact ⟨h.1.step hlen hl, h.2.step h.1 hlen hl⟩
  obtain ⟨⟨hp, hr⟩, hevent⟩ := twinMachine.trace_invariant_at
    (H := fun log w => Paired macs w ∧ GateRemembers log w)
    (L := fun _ e => TwinLegal macs e.pre e.input)
    ⟨paired_empty macs, gateRemembers_nil {}⟩ hstep hl he
  have hlegal := hl log e he
  rw [hevent]
  exact ⟨(hp.step hlen hlegal).agrees, passesOnlyNews hr hp hlen hlegal⟩

def peerMac : Mac := macAt [0x00, 0x40, 0xab, 0xc4, 0x80, 0x41] 0

/-- A sighting of the peer in the given role, at the given width. -/
def peerSighting (role : DiscoRole) (channels : ℕ) : Sighting := { mac := peerMac, role, channels }

/-- A box is heard, heard again at once and refreshed a second later. -/
def boxRun : List DiscoInput :=
  [.sight (peerSighting .box 16) false 0, .sight (peerSighting .box 16) false 250000,
    .sight (peerSighting .box 16) false 1000000000]

theorem told_boxRun {w : Twin} {now : ℕ} (h : ∀ t ∈ w.gated.peers.find peerMac,
      t.role = .box ∧ t.channels = 16)
    (hkept : w.gated.peers.find peerMac = none → w.gate.find peerMac = none) :
    Told w (peerSighting .box 16) now := by
  refine ⟨?_, ?_, ?_⟩
  · intro g _ _ _ t ht
    exact Nat.le_of_eq (h t ht).2.symm
  · rintro t _ ⟨-, hmaster⟩
    cases hmaster
  · intro g hg hlost
    have hnone := hkept hlost
    rw [Option.mem_def] at hg
    have hg' : w.gate.find peerMac = some g := hg
    rw [hnone] at hg'
    cases hg'

theorem gate_exact_boxRun :
    boxRun.length = 3 ∧ ∀ log e, twinMachine.StepOf {} boxRun log e →
      Agrees e.post ∧ PassesOnlyNews log e := by
  have hlen : [peerMac].length ≤ discoMax := by decide
  refine ⟨rfl, gate_exact hlen ?_⟩
  intro log e he
  have hlegal : ∀ (w : Twin) (now : ℕ), w.clock ≤ now →
      (∀ t ∈ w.gated.peers.find peerMac, t.role = .box ∧ t.channels = 16) →
      (w.gated.peers.find peerMac = none → w.gate.find peerMac = none) →
      TwinLegal [peerMac] w (.sight (peerSighting .box 16) false now) := by
    intro w now hclock h hkept
    refine ⟨hclock, ?_⟩
    rintro s owned now' ⟨⟩
    exact ⟨List.mem_singleton_self _, told_boxRun h hkept⟩
  obtain ⟨rfl, rfl⟩ | ⟨log, rfl, he₁⟩ := he.of_cons
  · exact hlegal _ _ (by decide) (by decide +kernel) (by decide +kernel)
  obtain ⟨rfl, rfl⟩ | ⟨log, rfl, he₂⟩ := he₁.of_cons
  · exact hlegal _ _ (by decide +kernel) (by decide +kernel) (by decide +kernel)
  obtain ⟨rfl, rfl⟩ | ⟨log, rfl, post, he₃⟩ := he₂.of_cons
  · exact hlegal _ _ (by decide +kernel) (by decide +kernel) (by decide +kernel)
  · simp at he₃

/-- A box is heard by a control frame and a moment later at its width. -/
def widthRun : List DiscoInput :=
  [.sight (peerSighting .box 0) false 0, .sight (peerSighting .box 16) false 250000]

/-- A box says goodbye, which reads as a master's frame. -/
def byeRun : List DiscoInput :=
  [.sight (peerSighting .box 16) false 0, .sight (peerSighting .master 16) false 250000]

/-- The width never reaches the table behind the gate, and a role passes that the table refuses. -/
theorem gate_inexact :
    ((twinMachine.run {} widthRun).every.peers.find peerMac).map (·.channels) = some 16 ∧
      ((twinMachine.run {} widthRun).gated.peers.find peerMac).map (·.channels) = some 0 ∧
      ¬ Agrees (twinMachine.run {} widthRun) ∧
      ((twinMachine.trace {} byeRun).map fun e => (e.out.passed, e.out.changed)) =
        [(true, true), (true, false)] := by
  have hwide : ((twinMachine.run {} widthRun).every.peers.find peerMac).map
      (fun u => (u.channels, u.lastSeen)) = some (16, 250000) := by decide +kernel
  have hnarrow : ((twinMachine.run {} widthRun).gated.peers.find peerMac).map (·.channels) =
      some 0 := by decide +kernel
  refine ⟨by decide +kernel, hnarrow, ?_, by decide +kernel⟩
  intro h
  obtain ⟨u, hu, huw⟩ := Option.map_eq_some_iff.mp hwide
  obtain ⟨hch, hseen⟩ := Prod.mk.inj huw
  have hclock : (twinMachine.run {} widthRun).clock = 250000 := by decide +kernel
  obtain ⟨t, ht, -, -, -, hsame⟩ := h peerMac u hu (by rw [hclock, hseen]; decide)
  rw [ht, Option.map_some, hsame, hch] at hnarrow
  cases hnarrow

end Libreac
