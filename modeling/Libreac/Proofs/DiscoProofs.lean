import Libreac.Disco

/-!
# Proofs: what the gate and the table remember

Both fold a sighting into what they knew of a peer. `Facts.tell` is that fold on the three facts they
share. The gate applies it always, the table unless it refuses a role; an edge is a sighting that
changes the outcome.
-/

namespace Libreac

/-- The facts the gate and the table both keep of a peer. -/
structure Facts where
  role : DiscoRole
  decl : Option (UInt8 × UInt8)
  slots : UInt8
  deriving DecidableEq

/-- A fact that is told replaces the one that was known. -/
def Facts.tell (f s : Facts) : Facts where
  role := if s.role ≠ .unknown then s.role else f.role
  decl := if s.decl ≠ none then s.decl else f.decl
  slots := if s.slots ≠ 0 then s.slots else f.slots

def Sighting.facts (s : Sighting) : Facts := ⟨s.role, s.decl, s.announcedSlots⟩

def GateEntry.facts (e : GateEntry) : Facts := ⟨e.role, e.declKey, e.announcedSlots⟩

def DiscoEntry.facts (e : DiscoEntry) : Facts := ⟨e.role, e.decl, e.announcedSlots⟩

/-- The table refuses the role of the sighting: a box does not un-prove itself. -/
def DiscoEntry.refuses (e : DiscoEntry) (s : Sighting) : Prop := e.role = .box ∧ s.role = .master

instance (e : DiscoEntry) (s : Sighting) : Decidable (e.refuses s) :=
  inferInstanceAs (Decidable (_ ∧ _))

/-! ## One entry -/

section Entries

variable {s : Sighting}

/-- An edge is a sighting that changes what is known. -/
theorem edge_iff (e : GateEntry) (s : Sighting) : e.edge s = true ↔ e.facts.tell s.facts ≠ e.facts := by
  simp only [GateEntry.edge, GateEntry.facts, Sighting.facts, Facts.tell, decide_eq_true_eq, ne_eq,
    Facts.mk.injEq, not_and_or]
  refine or_congr ?_ (or_congr ?_ ?_)
  · by_cases h : s.role = .unknown <;> simp [h]
  · by_cases h : s.decl = none <;> simp [h]
  · by_cases h : s.announcedSlots = 0 <;> simp [h]

theorem note_facts (e : GateEntry) (s : Sighting) (now : ℕ) :
    (e.note s now).facts = e.facts.tell s.facts := rfl

theorem refreshDue_iff (e : GateEntry) (now : ℕ) :
    e.refreshDue now = true ↔ now < e.lastPush ∨ e.lastPush + discoRefreshNs ≤ now := by
  unfold GateEntry.refreshDue
  rw [decide_eq_true_iff]
  omega

/-- The table folds a sighting it does not refuse. -/
theorem sharpen_facts {e : DiscoEntry} (h : ¬ e.refuses s) (owned : Bool) (now : ℕ) :
    (e.sharpen s owned now).facts = e.facts.tell s.facts := by
  have hnot : ¬(e.role = .box ∧ s.role = .master) := h
  simp only [DiscoEntry.facts, DiscoEntry.sharpen, Sighting.facts, Facts.tell, Facts.mk.injEq,
    DiscoEntry.takesRole, DiscoEntry.takesDecl, DiscoEntry.takesSlots, decide_eq_true_eq, hnot,
    not_false_eq_true, and_true]
  refine ⟨?_, ?_, ?_⟩
  · by_cases h1 : s.role = .unknown <;> by_cases h2 : e.role = s.role <;> simp [h1, h2]
  · by_cases h1 : s.decl = none <;> by_cases h2 : e.decl = s.decl <;> simp [h1, h2]
  · by_cases h1 : s.announcedSlots = 0 <;> by_cases h2 : e.announcedSlots = s.announcedSlots <;>
      simp [h1, h2]

/-- A sighting that changes what is known changes the table. -/
theorem changes_of_tell {e : DiscoEntry} (h : ¬ e.refuses s) (htell : e.facts.tell s.facts ≠ e.facts)
    (owned : Bool) : e.changes s owned = true := by
  by_contra hsame
  apply htell
  have hkeep : e.takesRole s = false ∧ e.takesDecl s = false ∧ e.takesSlots s = false := by
    simp only [DiscoEntry.changes, Bool.not_eq_true, Bool.or_eq_false_iff] at hsame
    exact ⟨hsame.1.1.1.1.1, hsame.1.1.1.1.2, hsame.1.1.1.2⟩
  rw [← sharpen_facts h owned 0]
  simp [DiscoEntry.facts, DiscoEntry.sharpen, hkeep]

theorem sharpen_channels (e : DiscoEntry) (s : Sighting) (owned : Bool) (now : ℕ) :
    (e.sharpen s owned now).channels = max e.channels s.channels := by
  simp only [DiscoEntry.sharpen, Nat.max_def]
  split_ifs <;> omega

end Entries

/-! ## The gate -/

section Gate

variable {g : DiscoGate} {s : Sighting} {e : GateEntry}

theorem gateShouldPush_some (h : g.find s.mac = some e) (now : ℕ) :
    gateShouldPush g s now =
      if e.edge s then (g.update s.mac (·.note s now) (·.note_mac s now), true)
      else if e.refreshDue now then (g.update s.mac (·.refreshed now) (·.refreshed_mac now), true)
      else (g, false) := by
  unfold gateShouldPush
  split
  case h_1 e₀ hsome =>
    rw [h] at hsome
    obtain rfl := Option.some.inj hsome
    rfl
  case h_2 hnone =>
    rw [h] at hnone
    cases hnone

theorem find_update_known (h : g.find s.mac = some e) (f : GateEntry → GateEntry)
    (hf : ∀ e, (f e).mac = e.mac) (m : Mac) :
    Roster.find (Roster.update g s.mac f hf) m = if m = s.mac then some (f e) else g.find m := by
  rw [Roster.find_update]
  split_ifs with hm
  · rw [hm, h]
    rfl
  · rfl

/-- A known peer: an edge or a refresh passes, and the gate folds what it hears in any case. -/
theorem gateShouldPush_known (h : g.find s.mac = some e) (now : ℕ) :
    (gateShouldPush g s now).2 = (e.edge s || e.refreshDue now) ∧
      ∃ e', (∀ m, (gateShouldPush g s now).1.find m = if m = s.mac then some e' else g.find m) ∧
        e'.facts = e.facts.tell s.facts ∧
        e'.lastPush = if e.edge s || e.refreshDue now then now else e.lastPush := by
  rw [gateShouldPush_some h]
  by_cases hedge : e.edge s = true
  · rw [if_pos hedge, hedge, Bool.true_or]
    exact ⟨rfl, e.note s now, find_update_known h _ (·.note_mac s now), note_facts e s now, rfl⟩
  · have htell : e.facts.tell s.facts = e.facts := by
      by_contra hne
      exact hedge ((edge_iff e s).mpr hne)
    rw [if_neg hedge, htell, Bool.eq_false_iff.mpr hedge, Bool.false_or]
    by_cases hdue : e.refreshDue now = true
    · rw [if_pos hdue, hdue]
      exact ⟨rfl, e.refreshed now, find_update_known h _ (·.refreshed_mac now), rfl, rfl⟩
    · rw [if_neg hdue, Bool.eq_false_iff.mpr hdue]
      refine ⟨rfl, e, ?_, rfl, rfl⟩
      intro m
      split_ifs with hm
      · rw [hm, h]
      · rfl

/-- A new peer passes while there is room. -/
theorem gateShouldPush_new (h : g.find s.mac = none) (hroom : g.full = false) (now : ℕ) :
    (gateShouldPush g s now).2 = true ∧ ∀ m, (gateShouldPush g s now).1.find m =
      if m = s.mac then some (gateEntryOf s now) else g.find m := by
  unfold gateShouldPush
  split
  case h_1 e₀ hsome =>
    rw [h] at hsome
    cases hsome
  case h_2 hnone =>
    rw [dif_neg (by simp [hroom])]
    refine ⟨rfl, ?_⟩
    intro m
    rw [Roster.find_insert]
    rfl

/-- A new peer is turned away once the gate is full. -/
theorem gateShouldPush_full (h : g.find s.mac = none) (hfull : g.full = true) (now : ℕ) :
    gateShouldPush g s now = (g, false) := by
  unfold gateShouldPush
  split
  case h_1 e₀ hsome =>
    rw [h] at hsome
    cases hsome
  case h_2 hnone => rw [dif_pos hfull]

end Gate

/-! ## The table -/

section Table

variable {t : DiscoTable} {s : Sighting} {e : DiscoEntry}

theorem tableObserve_known (h : t.peers.find s.mac = some e) (owned : Bool) (now : ℕ) :
    (tableObserve t s owned now).2 = e.changes s owned ∧ ∀ m, (tableObserve t s owned now).1.peers.find m =
      if m = s.mac then some (e.sharpen s owned now) else t.peers.find m := by
  unfold tableObserve
  split
  case h_2 hnone =>
    rw [h] at hnone
    cases hnone
  case h_1 e₀ hsome =>
    rw [h] at hsome
    obtain rfl := Option.some.inj hsome
    refine ⟨rfl, ?_⟩
    intro m
    rw [Roster.find_update]
    split_ifs with hm
    · rw [hm, h]
      rfl
    · rfl

theorem tableObserve_new (h : t.peers.find s.mac = none) (hroom : t.peers.full = false) (owned : Bool)
    (now : ℕ) :
    (tableObserve t s owned now).2 = true ∧ ∀ m, (tableObserve t s owned now).1.peers.find m =
      if m = s.mac then some (discoEntryOf s owned now) else t.peers.find m := by
  unfold tableObserve
  split
  case h_1 e₀ hsome =>
    rw [h] at hsome
    cases hsome
  case h_2 hnone =>
    rw [dif_neg (by simp [hroom])]
    refine ⟨rfl, ?_⟩
    intro m
    rw [Roster.find_insert]
    rfl

/-- The overflow flag is raised only for a new peer in a full table. -/
theorem tableObserve_overflowed (h : t.peers.find s.mac = none → t.peers.full = false) (owned : Bool)
    (now : ℕ) : (tableObserve t s owned now).1.overflowed = t.overflowed := by
  unfold tableObserve
  split
  case h_1 => rfl
  case h_2 hnone => rw [dif_neg (by simp [h hnone])]

theorem tableAge_find (t : DiscoTable) (now : ℕ) (m : Mac) :
    (tableAge t now).peers.find m = (t.peers.find m).filter fun e => !e.stale now :=
  Roster.find_retain _ _ m

theorem stale_iff (e : DiscoEntry) (now : ℕ) :
    e.stale now = true ↔ e.lastSeen + discoStaleNs < now := by
  simp only [DiscoEntry.stale, decide_eq_true_eq]
  constructor <;> intro h <;> omega

end Table

end Libreac
