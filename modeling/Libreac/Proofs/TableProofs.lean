import Mathlib
import Libreac.Known
import Libreac.Proofs.GateProofs

/-!
# Proofs: the laws of the discovery table

The table is a machine under sightings and aging passes. What a step may do to an entry that stays is one
law (`DiscoTableStepLaws`); the widest geometry is a law of everything heard of a peer since it was absent
last (`heardOf`). Role, channels and owned of a peer are joins of what is told of it, so while nothing is
withdrawn their order does not matter.
-/

namespace Libreac

open Reactive

/-! ## The table as a machine -/

/-- What a call returns: whether the table changed, or how many entries went. -/
inductive DiscoTableOut where
  | observed (changed : Bool)
  | aged (removed : ℕ)

/-- One call. -/
def discoTableStep (t : DiscoTable) : DiscoInput → DiscoTable × DiscoTableOut
  | .sight s owned now =>
    let (t, changed) := tableObserve t s owned now
    (t, .observed changed)
  | .age now => (tableAge t now, .aged (t.peers.entries.length - (tableAge t now).peers.entries.length))

/-- The table under its calls. -/
def discoTableMachine : Machine DiscoTable DiscoInput DiscoTableOut := ⟨discoTableStep⟩

@[simp] theorem discoTableMachine_step (t : DiscoTable) (i : DiscoInput) :
    discoTableMachine.step t i = discoTableStep t i := rfl

/-- One call of a run. -/
abbrev DiscoTableEvent := Event DiscoTable DiscoInput DiscoTableOut

/-- A new peer that a full table has no room for. -/
def tableRefuses (e : DiscoTableEvent) : Bool :=
  match e.input with
  | .sight s _ _ => (e.pre.peers.find s.mac).isNone && e.pre.peers.full
  | .age _ => false

/-- The sighting of a peer. -/
def sightOf (m : Mac) (e : DiscoTableEvent) : Option Sighting :=
  match e.input with
  | .sight s _ _ => if s.mac = m then some s else none
  | .age _ => none

/-- The peer has no entry afterwards. -/
def tableLacks (m : Mac) (e : DiscoTableEvent) : Bool := (e.post.peers.find m).isNone

/-- What was heard of a peer since it had no entry last. -/
def heardOf (m : Mac) (log : List DiscoTableEvent) : List Sighting :=
  (sinceLast (tableLacks m) log).filterMap (sightOf m)

/-- By how much a call moves the sequence number. -/
def seqGrowth (log : List DiscoTableEvent) (e : DiscoTableEvent) : UInt32 :=
  match e.out with
  | .observed changed =>
    (if changed then 1 else 0) + if tableRefuses e ∧ log.any tableRefuses = false then 1 else 0
  | .aged removed => if removed = 0 then 0 else 1

/-- What a call may do. -/
structure DiscoTableStepLaws (log : List DiscoTableEvent) (e : DiscoTableEvent) : Prop where
  kept : ∀ m a a', e.pre.peers.find m = some a → e.post.peers.find m = some a' →
    a'.firstSeen = a.firstSeen ∧ (a.owned = true → a'.owned = true) ∧ (a.role = .box → a'.role = .box)
  seq : e.post.seq = e.pre.seq + seqGrowth log e
  aged : ∀ now, e.input = .age now →
    (∀ m, e.post.peers.find m =
      (e.pre.peers.find m).filter fun a => !decide (a.lastSeen + discoStaleNs < now)) ∧
    e.out = .aged (e.pre.peers.entries.countP fun a => decide (a.lastSeen + discoStaleNs < now))

/-- What is told of a peer in any order: the sightings name no peers but those of `macs`. -/
def SightsOf (macs : List Mac) (is : List DiscoInput) : Prop :=
  ∀ i ∈ is, ∃ s owned now, i = .sight s owned now ∧ s.mac ∈ macs

/-- Role, channels and owned of an entry. -/
def DiscoEntry.lasting (e : DiscoEntry) : DiscoRole × ℕ × Bool := (e.role, e.channels, e.owned)

/-- The laws of the table after the calls `is`. -/
structure DiscoTableLaws (is : List DiscoInput) : Prop where
  unique : ((discoTableMachine.run {} is).peers.entries.map DiscoEntry.mac).Nodup ∧
    (discoTableMachine.run {} is).peers.entries.length ≤ discoMax
  channels : ∀ m a, (discoTableMachine.run {} is).peers.find m = some a →
    a.channels = ((heardOf m (discoTableMachine.trace {} is)).map Sighting.channels).foldl max 0
  steps : ∀ log e, discoTableMachine.StepOf {} is log e → DiscoTableStepLaws log e
  order : ∀ macs : List Mac, macs.length ≤ discoMax →
    (∀ m, (discoTableMachine.run {} is).peers.find m ≠ none → m ∈ macs) →
    ∀ js js', js.Perm js' → SightsOf macs js → ∀ m,
      ((discoTableMachine.run {} (is ++ js)).peers.find m).map DiscoEntry.lasting =
        ((discoTableMachine.run {} (is ++ js')).peers.find m).map DiscoEntry.lasting

/-! ## One call -/

section Calls

variable {t : DiscoTable} {s : Sighting} {a : DiscoEntry} {owned : Bool} {now : ℕ}

theorem tableObserve_known_seq (h : t.peers.find s.mac = some a) (owned : Bool) (now : ℕ) :
    (tableObserve t s owned now).1.seq = t.seq + (if (tableObserve t s owned now).2 then 1 else 0) ∧
      (tableObserve t s owned now).1.overflowed = t.overflowed := by
  unfold tableObserve
  split
  case h_2 hnone =>
    rw [h] at hnone
    cases hnone
  case h_1 =>
    refine ⟨?_, rfl⟩
    dsimp only
    split_ifs
    · rfl
    · exact (UInt32.add_zero _).symm

theorem tableObserve_new_seq (h : t.peers.find s.mac = none) (hroom : t.peers.full = false) (owned : Bool)
    (now : ℕ) :
    (tableObserve t s owned now).1.seq = t.seq + 1 ∧
      (tableObserve t s owned now).1.overflowed = t.overflowed := by
  unfold tableObserve
  split
  case h_1 hsome =>
    rw [h] at hsome
    cases hsome
  case h_2 =>
    rw [dif_neg (by simp [hroom])]
    exact ⟨rfl, rfl⟩

theorem tableObserve_full (h : t.peers.find s.mac = none) (hfull : t.peers.full = true) (owned : Bool)
    (now : ℕ) :
    tableObserve t s owned now =
      (if t.overflowed then t else { t with overflowed := true, seq := t.seq + 1 }, false) := by
  unfold tableObserve
  split
  case h_1 hsome =>
    rw [h] at hsome
    cases hsome
  case h_2 => rw [dif_pos hfull]

/-- The facts of an entry that is heard again. -/
theorem sharpen_kept (a : DiscoEntry) (s : Sighting) (owned : Bool) (now : ℕ) :
    (a.sharpen s owned now).firstSeen = a.firstSeen ∧
      (a.owned = true → (a.sharpen s owned now).owned = true) ∧
      (a.role = .box → (a.sharpen s owned now).role = .box) := by
  refine ⟨rfl, ?_, ?_⟩
  · intro hown
    simp only [DiscoEntry.sharpen, hown, Bool.true_or]
  · intro hbox
    simp only [DiscoEntry.sharpen, DiscoEntry.takesRole, hbox]
    cases s.role <;> rfl

/-- The number of entries that are withdrawn. -/
theorem tableAge_removed (t : DiscoTable) (now : ℕ) :
    t.peers.entries.length - (tableAge t now).peers.entries.length =
      t.peers.entries.countP fun a => decide (a.lastSeen + discoStaleNs < now) := by
  have hperm := Roster.swapRemove_perm (fun a : DiscoEntry => !a.stale now) t.peers.entries.length
    t.peers.entries (le_refl _)
  have hlen : (tableAge t now).peers.entries.length =
      t.peers.entries.countP fun a => !a.stale now := by
    rw [List.countP_eq_length_filter]
    exact hperm.length_eq
  have hsplit := List.length_eq_countP_add_countP (fun a : DiscoEntry => a.stale now) (l := t.peers.entries)
  have hstale : t.peers.entries.countP (fun a => decide (a.lastSeen + discoStaleNs < now)) =
      t.peers.entries.countP fun a => a.stale now := by
    refine List.countP_congr fun a _ => ?_
    rw [decide_eq_true_iff, stale_iff]
  have hnot : t.peers.entries.countP (fun a => decide ¬ a.stale now = true) =
      t.peers.entries.countP fun a => !a.stale now := by
    refine List.countP_congr fun a _ => ?_
    simp
  omega

theorem tableAge_seq (t : DiscoTable) (now : ℕ) :
    (tableAge t now).seq = t.seq +
      if t.peers.entries.length - (tableAge t now).peers.entries.length = 0 then 0 else 1 := by
  have hle : (tableAge t now).peers.entries.length ≤ t.peers.entries.length := by
    have hperm := Roster.swapRemove_perm (fun a : DiscoEntry => !a.stale now) t.peers.entries.length
      t.peers.entries (le_refl _)
    exact hperm.length_eq.le.trans (List.length_filter_le _ _)
  have hseq : (tableAge t now).seq =
      if (tableAge t now).peers.entries.length ≠ t.peers.entries.length then t.seq + 1 else t.seq := rfl
  rw [hseq]
  split_ifs
  · omega
  · rfl
  · exact (UInt32.add_zero _).symm
  · omega

end Calls

/-! ## A run -/

section Run

variable {log : List DiscoTableEvent} {t : DiscoTable}

theorem heardOf_concat (m : Mac) (log : List DiscoTableEvent) (e : DiscoTableEvent) :
    heardOf m (log ++ [e]) =
      if tableLacks m e then [] else heardOf m log ++ (sightOf m e).toList := by
  unfold heardOf
  rw [sinceLast_concat]
  split_ifs
  · rfl
  · rw [List.filterMap_append]
    cases hs : sightOf m e <;> simp [hs]

/-- What the table remembers of the calls of `log`. -/
structure DiscoTableLog (log : List DiscoTableEvent) (t : DiscoTable) : Prop where
  overflowed : t.overflowed = log.any tableRefuses
  channels : ∀ m a, t.peers.find m = some a →
    a.channels = ((heardOf m log).map Sighting.channels).foldl max 0
  absent : ∀ m, t.peers.find m = none → heardOf m log = []

theorem discoTableLog_init : DiscoTableLog [] {} := by
  refine ⟨rfl, ?_, fun m _ => rfl⟩
  intro m a h
  cases h

/-- A call, by what it makes of each entry. -/
theorem DiscoTableLog.concat {i : DiscoInput} {t' : DiscoTable} {out : DiscoTableOut}
    (h : DiscoTableLog log t)
    (hover : t'.overflowed = (t.overflowed || tableRefuses ⟨t, i, out, t'⟩))
    (hchannels : ∀ m a', t'.peers.find m = some a' →
      a'.channels =
        ((heardOf m log ++ (sightOf m ⟨t, i, out, t'⟩).toList).map Sighting.channels).foldl max 0) :
    DiscoTableLog (log ++ [⟨t, i, out, t'⟩]) t' := by
  refine ⟨?_, ?_, ?_⟩
  · rw [List.any_append, hover, h.overflowed, List.any_cons, List.any_nil, Bool.or_false]
  · intro m a' hfind
    have hhas : tableLacks m ⟨t, i, out, t'⟩ = false := by
      unfold tableLacks
      rw [hfind]
      rfl
    rw [heardOf_concat, hhas, if_neg Bool.false_ne_true]
    exact hchannels m a' hfind
  · intro m hfind
    have hlacks : tableLacks m ⟨t, i, out, t'⟩ = true := by
      unfold tableLacks
      rw [hfind]
      rfl
    rw [heardOf_concat, hlacks, if_pos rfl]

/-- What a call keeps of the log, and the laws it obeys. -/
structure DiscoCallKept (log : List DiscoTableEvent) (e : DiscoTableEvent) : Prop where
  kept : DiscoTableLog (log ++ [e]) e.post
  laws : DiscoTableStepLaws log e

variable {s : Sighting} {owned : Bool} {now : ℕ}

/-- The event of a sighting. -/
def sightEvent (t : DiscoTable) (s : Sighting) (owned : Bool) (now : ℕ) : DiscoTableEvent :=
  ⟨t, .sight s owned now, .observed (tableObserve t s owned now).2, (tableObserve t s owned now).1⟩

theorem tableRefuses_sight (t : DiscoTable) (s : Sighting) (owned : Bool) (now : ℕ) (out : DiscoTableOut)
    (t' : DiscoTable) :
    tableRefuses ⟨t, .sight s owned now, out, t'⟩ = ((t.peers.find s.mac).isNone && t.peers.full) := rfl

theorem sightOf_sight (m : Mac) (t : DiscoTable) (s : Sighting) (owned : Bool) (now : ℕ)
    (out : DiscoTableOut) (t' : DiscoTable) :
    sightOf m ⟨t, .sight s owned now, out, t'⟩ = if s.mac = m then some s else none := rfl

/-- A peer that is heard again. -/
theorem DiscoTableLog.known {a : DiscoEntry} (h : DiscoTableLog log t) (ha : t.peers.find s.mac = some a)
    (owned : Bool) (now : ℕ) : DiscoCallKept log (sightEvent t s owned now) := by
  obtain ⟨hout, hfind⟩ := tableObserve_known ha owned now
  obtain ⟨hseq, hover⟩ := tableObserve_known_seq ha owned now
  have hroom : ∀ out t', tableRefuses ⟨t, .sight s owned now, out, t'⟩ = false := by
    intro out t'
    rw [tableRefuses_sight, ha]
    rfl
  refine ⟨h.concat ?_ ?_, ⟨?_, ?_, ?_⟩⟩
  · rw [hroom, Bool.or_false]
    exact hover
  · intro m a' ha'
    rw [hfind] at ha'
    rw [sightOf_sight]
    by_cases hm : m = s.mac
    · rw [if_pos hm] at ha'
      rw [if_pos hm.symm, ← Option.some.inj ha', sharpen_channels, h.channels m a (by rw [hm]; exact ha)]
      simp
    · rw [if_neg hm] at ha'
      rw [if_neg (Ne.symm hm), h.channels m a' ha']
      simp
  · intro m a₀ a' hpre hpost
    unfold sightEvent at hpre hpost
    dsimp only at hpre hpost
    rw [hfind] at hpost
    by_cases hm : m = s.mac
    · rw [if_pos hm] at hpost
      rw [hm, ha] at hpre
      rw [← Option.some.inj hpost, ← Option.some.inj hpre]
      exact sharpen_kept a s owned now
    · rw [if_neg hm, hpre] at hpost
      rw [Option.some.inj hpost]
      exact ⟨rfl, id, id⟩
  · unfold sightEvent seqGrowth
    dsimp only
    rw [hroom, hseq]
    simp
  · intro now' hage
    cases hage

/-- A new one that there is room for. -/
theorem DiscoTableLog.new (h : DiscoTableLog log t) (hnone : t.peers.find s.mac = none)
    (hroom : t.peers.full = false) (owned : Bool) (now : ℕ) :
    DiscoCallKept log (sightEvent t s owned now) := by
  obtain ⟨hout, hfind⟩ := tableObserve_new hnone hroom owned now
  obtain ⟨hseq, hover⟩ := tableObserve_new_seq hnone hroom owned now
  have htaken : ∀ out t', tableRefuses ⟨t, .sight s owned now, out, t'⟩ = false := by
    intro out t'
    rw [tableRefuses_sight, hroom, Bool.and_false]
  refine ⟨h.concat ?_ ?_, ⟨?_, ?_, ?_⟩⟩
  · rw [htaken, Bool.or_false]
    exact hover
  · intro m a' ha'
    rw [hfind] at ha'
    rw [sightOf_sight]
    by_cases hm : m = s.mac
    · rw [if_pos hm] at ha'
      rw [if_pos hm.symm, h.absent m (by rw [hm]; exact hnone), ← Option.some.inj ha']
      simp [discoEntryOf]
    · rw [if_neg hm] at ha'
      rw [if_neg (Ne.symm hm), h.channels m a' ha']
      simp
  · intro m a₀ a' hpre hpost
    unfold sightEvent at hpre hpost
    dsimp only at hpre hpost
    rw [hfind] at hpost
    by_cases hm : m = s.mac
    · rw [hm, hnone] at hpre
      cases hpre
    · rw [if_neg hm, hpre] at hpost
      rw [Option.some.inj hpost]
      exact ⟨rfl, id, id⟩
  · unfold sightEvent seqGrowth
    dsimp only
    rw [htaken, hseq, hout]
    simp
  · intro now' hage
    cases hage

/-- A new one in a full table. -/
theorem DiscoTableLog.refused (h : DiscoTableLog log t) (hnone : t.peers.find s.mac = none)
    (hfull : t.peers.full = true) (owned : Bool) (now : ℕ) :
    DiscoCallKept log (sightEvent t s owned now) := by
  have hobserve := tableObserve_full hnone hfull owned now
  have hpeers : (tableObserve t s owned now).1.peers = t.peers := by
    rw [hobserve]
    dsimp only
    split_ifs <;> rfl
  have hrefused : ∀ out t', tableRefuses ⟨t, .sight s owned now, out, t'⟩ = true := by
    intro out t'
    rw [tableRefuses_sight, hnone, hfull]
    rfl
  refine ⟨h.concat ?_ ?_, ⟨?_, ?_, ?_⟩⟩
  · rw [hrefused, Bool.or_true, hobserve]
    dsimp only
    split_ifs with hover
    · exact hover
    · rfl
  · intro m a' ha'
    rw [hpeers] at ha'
    rw [sightOf_sight]
    by_cases hm : m = s.mac
    · rw [hm, hnone] at ha'
      cases ha'
    · rw [if_neg (Ne.symm hm), h.channels m a' ha']
      simp
  · intro m a₀ a' hpre hpost
    unfold sightEvent at hpre hpost
    dsimp only at hpre hpost
    rw [hpeers, hpre] at hpost
    rw [Option.some.inj hpost]
    exact ⟨rfl, id, id⟩
  · unfold sightEvent seqGrowth
    dsimp only
    rw [hrefused, ← h.overflowed, hobserve]
    dsimp only
    split_ifs with hover hfirst hfirst <;> simp_all
  · intro now' hage
    cases hage

/-- An aging pass. -/
theorem DiscoTableLog.age (h : DiscoTableLog log t) (now : ℕ) :
    DiscoCallKept log (discoTableMachine.event t (.age now)) := by
  have hfind := tableAge_find t now
  refine ⟨h.concat (Bool.or_false _).symm ?_, ⟨?_, ?_, ?_⟩⟩
  · intro m a' ha'
    have hpre : t.peers.find m = some a' := by
      have hfilter := (hfind m).symm.trans ha'
      exact (Option.filter_eq_some_iff.mp hfilter).1
    rw [h.channels m a' hpre]
    simp [sightOf]
  · intro m a a' hpre hpost
    have hfilter := (hfind m).symm.trans hpost
    have hsame := (Option.filter_eq_some_iff.mp hfilter).1
    rw [show t.peers.find m = some a from hpre] at hsame
    rw [← Option.some.inj hsame]
    exact ⟨rfl, id, id⟩
  · exact tableAge_seq t now
  · intro now' hage
    obtain rfl : now = now' := by
      cases hage
      rfl
    refine ⟨?_, congrArg DiscoTableOut.aged (tableAge_removed t now)⟩
    intro m
    refine (hfind m).trans ?_
    congr 1
    funext a
    rw [Bool.eq_iff_iff]
    simp [← stale_iff]

theorem DiscoTableLog.step (h : DiscoTableLog log t) (i : DiscoInput) :
    DiscoCallKept log (discoTableMachine.event t i) := by
  cases i with
  | sight s owned now =>
    cases hfind : t.peers.find s.mac with
    | some a => exact h.known hfind owned now
    | none =>
      cases hfull : t.peers.full with
      | true => exact h.refused hfind hfull owned now
      | false => exact h.new hfind hfull owned now
  | age now => exact h.age now

theorem discoTable_run (is : List DiscoInput) :
    DiscoTableLog (discoTableMachine.trace {} is) (discoTableMachine.run {} is) := by
  induction is using List.reverseRecOn with
  | nil => exact discoTableLog_init
  | append_singleton is i ih =>
    rw [discoTableMachine.run_concat, discoTableMachine.trace_concat]
    exact (ih.step i).kept

end Run

/-! ## The order of sightings -/

section Order

/-- A box is more than a master, which is more than an unknown peer. -/
def DiscoRole.rank : DiscoRole → ℕ
  | .unknown => 0
  | .master => 1
  | .box => 2

theorem rank_injective : Function.Injective DiscoRole.rank := by
  intro a b h
  cases a <;> cases b <;> first | rfl | cases h

instance : LinearOrder DiscoRole := LinearOrder.lift' DiscoRole.rank rank_injective

/-- What a table knows of each peer. -/
def DiscoTable.known (t : DiscoTable) (m : Mac) : WithBot (DiscoRole × ℕ × Bool) :=
  (t.peers.find m).map DiscoEntry.lasting

/-- What a sighting tells. -/
def toldBy : DiscoInput → Option (Mac × DiscoRole × ℕ × Bool)
  | .sight s owned _ => some (s.mac, s.role, s.channels, owned)
  | .age _ => none

variable {t : DiscoTable} {s : Sighting} {macs : List Mac}

/-- The role an entry has after a sighting. -/
theorem sharpen_role (a : DiscoEntry) (s : Sighting) (owned : Bool) (now : ℕ) :
    (a.sharpen s owned now).role = a.role ⊔ s.role := by
  have hjoin : ∀ r q : DiscoRole,
      (if decide (q ≠ .unknown ∧ r ≠ q ∧ ¬ (r = .box ∧ q = .master)) = true then q else r) = r ⊔ q := by
    intro r q
    cases r <;> cases q <;> rfl
  exact hjoin a.role s.role

theorem sharpen_lasting (a : DiscoEntry) (s : Sighting) (owned : Bool) (now : ℕ) :
    (a.sharpen s owned now).lasting = a.lasting ⊔ (s.role, s.channels, owned) := by
  unfold DiscoEntry.lasting
  rw [sharpen_role, sharpen_channels]
  rfl

theorem known_some {m : Mac} {a : DiscoEntry} (h : t.peers.find m = some a) : t.known m = a.lasting := by
  unfold DiscoTable.known
  rw [h]
  rfl

theorem known_none {m : Mac} (h : t.peers.find m = none) : t.known m = ⊥ := by
  unfold DiscoTable.known
  rw [h]
  rfl

theorem known_congr {t' : DiscoTable} {m : Mac} (h : t'.peers.find m = t.peers.find m) :
    t'.known m = t.known m := by
  unfold DiscoTable.known
  rw [h]

/-- With room for its peer a sighting is learned. -/
theorem tableObserve_learns (h : t.peers.find s.mac = none → t.peers.full = false) (owned : Bool)
    (now : ℕ) :
    (tableObserve t s owned now).1.known = Known.learn t.known (s.mac, s.role, s.channels, owned) := by
  funext m
  rw [Known.learn_apply]
  cases ha : t.peers.find s.mac with
  | some a =>
    have hfind := (tableObserve_known ha owned now).2 m
    by_cases hm : m = s.mac
    · rw [if_pos hm] at hfind ⊢
      rw [known_some hfind, hm, known_some ha, sharpen_lasting]
      rfl
    · rw [if_neg hm] at hfind ⊢
      exact known_congr hfind
  | none =>
    have hfind := (tableObserve_new ha (h ha) owned now).2 m
    by_cases hm : m = s.mac
    · rw [if_pos hm] at hfind ⊢
      rw [known_some hfind, hm, known_none ha, sup_of_le_right bot_le]
      rfl
    · rw [if_neg hm] at hfind ⊢
      exact known_congr hfind

/-- There is room while the table and the sightings name few peers. -/
theorem roomFor (hlen : macs.length ≤ discoMax) (hsub : ∀ m, t.peers.find m ≠ none → m ∈ macs)
    (hs : s.mac ∈ macs) : t.peers.find s.mac = none → t.peers.full = false :=
  fun hnone => Roster.full_eq_false hlen hsub hs hnone

/-- What is known after sightings of few peers; induction on the sightings. -/
theorem run_known (hlen : macs.length ≤ discoMax) (is : List DiscoInput)
    (hsub : ∀ m, t.peers.find m ≠ none → m ∈ macs) (his : SightsOf macs is) :
    (discoTableMachine.run t is).known = (is.filterMap toldBy).foldl Known.learn t.known := by
  induction is generalizing t with
  | nil => rfl
  | cons i is ih =>
    obtain ⟨s, owned, now, rfl, hs⟩ := his i List.mem_cons_self
    have hlearn := tableObserve_learns (roomFor hlen hsub hs) owned now
    have hrest : ∀ m, (tableObserve t s owned now).1.peers.find m ≠ none → m ∈ macs := by
      intro m hm
      by_cases hmac : m = s.mac
      · rw [hmac]
        exact hs
      · refine hsub m fun hnone => hm ?_
        have hsame := congrFun hlearn m
        rw [Known.learn_apply, if_neg hmac, known_none hnone] at hsame
        exact Option.map_eq_none_iff.mp hsame
    rw [discoTableMachine.run_cons]
    refine (ih hrest fun i hi => his i (List.mem_cons_of_mem _ hi)).trans ?_
    rw [hlearn]
    rfl

end Order

/-- The laws of the table hold of every run of calls. -/
theorem disco_table_laws (is : List DiscoInput) : DiscoTableLaws is := by
  have hrun := discoTable_run is
  refine ⟨⟨(discoTableMachine.run {} is).peers.distinct, (discoTableMachine.run {} is).peers.fits⟩,
    hrun.channels, ?_, ?_⟩
  · rintro log e ⟨post, he⟩
    obtain ⟨is₁, i, is₂, rfl, rfl, rfl⟩ := discoTableMachine.trace_split he
    exact ((discoTable_run is₁).step i).laws
  · intro macs hlen hsub js js' hperm hjs m
    have hjs' : SightsOf macs js' := fun i hi => hjs i (hperm.mem_iff.mpr hi)
    have hknown : (discoTableMachine.run {} (is ++ js)).known =
        (discoTableMachine.run {} (is ++ js')).known := by
      rw [discoTableMachine.run_append, discoTableMachine.run_append, run_known hlen js hsub hjs,
        run_known hlen js' hsub hjs', Known.foldl_learn_perm (hperm.filterMap toldBy)]
    exact congrFun hknown m

end Libreac
