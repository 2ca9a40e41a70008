import Libreac.PacerDisco
import Libreac.Proofs.DiscoProofs
import Libreac.Proofs.PacerProofs

/-!
# Proofs: who is in the discovery table

The gate never forgets a peer and the table does, so every peer of the table is one of the gate's. A
sighting the gate passes therefore always finds room in the table, which never overflows; a peer the
gate turns away is left out, and nothing says so.
-/

namespace Libreac

open Reactive

/-- Every peer of the table is one of the gate's, and one of the gate's that is not in the table has
been silent for too long. -/
structure Listening (l : Listener) : Prop where
  within : ∀ m t, l.table.peers.find m = some t → ∃ g, l.gate.find m = some g ∧ g.lastPush ≤ t.lastSeen
  past : ∀ m g, l.gate.find m = some g → g.lastPush ≤ l.clock
  lost : ∀ m g, l.gate.find m = some g → l.table.peers.find m = none →
    g.lastPush + discoStaleNs < l.clock
  quiet : l.table.overflowed = false

theorem listening_start (p : Pacer) : Listening { pacer := p } :=
  ⟨nofun, nofun, nofun, rfl⟩

section Steps

variable {l : Listener} {s : Sighting} {now : ℕ}

theorem keys_of_find {key : GateEntry → Mac} {cap : ℕ} {r : Roster key cap} {m : Mac}
    (h : r.find m ≠ none) : m ∈ r.entries.map key := by
  by_contra hn
  exact h ((Roster.find_eq_none_iff r m).mpr hn)

/-- The drain of a sighting whose peer the gate knows: it is in the table, stamped now. -/
theorem drainSighting_find {t : DiscoTable} {g : DiscoGate}
    (hsub : ∀ m, t.peers.find m ≠ none → g.find m ≠ none) (hg : g.find s.mac ≠ none) (p : Pacer)
    (now : ℕ) :
    (drainSighting p t (ringSighting s) now).overflowed = t.overflowed ∧
      ∃ e, (∀ m, (drainSighting p t (ringSighting s) now).peers.find m =
        if m = s.mac then some e else t.peers.find m) ∧ e.lastSeen = now := by
  have hmac : (ownSighting p (ringSighting s)).mac = s.mac := by
    unfold ownSighting
    split_ifs <;> rfl
  have hroom : t.peers.find (ownSighting p (ringSighting s)).mac = none → t.peers.full = false := by
    rw [hmac]
    intro hnew
    have hlen : (g.entries.map GateEntry.mac).length ≤ discoMax := by
      rw [List.length_map]
      exact g.fits
    refine Roster.full_eq_false hlen ?_ (keys_of_find hg) hnew
    intro m hm
    exact keys_of_find (hsub m hm)
  refine ⟨tableObserve_overflowed hroom _ _, ?_⟩
  unfold drainSighting
  cases ht : t.peers.find (ownSighting p (ringSighting s)).mac with
  | some e =>
    refine ⟨e.sharpen (ownSighting p (ringSighting s)) (p.owns (ringSighting s).mac) now, ?_, rfl⟩
    intro m
    rw [(tableObserve_known ht _ now).2, hmac]
  | none =>
    refine ⟨discoEntryOf (ownSighting p (ringSighting s)) (p.owns (ringSighting s).mac) now, ?_, rfl⟩
    intro m
    rw [(tableObserve_new ht (hroom ht) _ now).2, hmac]

/-- The gate takes the peer: it knows it already or has room for it. -/
def Listener.admits (l : Listener) (mac : Mac) : Bool := (l.gate.find mac).isSome || !l.gate.full

/-- A sighting that the gate passes puts its peer into the table. -/
theorem Listening.pushed (h : Listening l) (hnow : l.clock ≤ now) (lag : ℕ) {gate : DiscoGate}
    {g : GateEntry} (hgate : ∀ m, gate.find m = if m = s.mac then some g else l.gate.find m)
    (hlast : g.lastPush = now) (p : Pacer) (lock : PeerLock) :
    let l' : Listener := { pacer := p, lock, gate, clock := now + lag
                           table := drainSighting p l.table (ringSighting s) (now + lag) }
    Listening l' ∧ l'.table.peers.find s.mac ≠ none := by
  dsimp only
  have hsub : ∀ m, l.table.peers.find m ≠ none → gate.find m ≠ none := by
    intro m hm
    obtain ⟨t, ht⟩ := Option.ne_none_iff_exists'.mp hm
    obtain ⟨g₀, hg₀, -⟩ := h.within m t ht
    rw [hgate]
    split_ifs
    · nofun
    · rw [hg₀]
      nofun
  obtain ⟨hquiet, e, hfind, hseen⟩ :=
    drainSighting_find (s := s) hsub (by rw [hgate, if_pos rfl]; nofun) p (now + lag)
  refine ⟨⟨?_, ?_, ?_, hquiet.trans h.quiet⟩, by rw [hfind, if_pos rfl]; nofun⟩
  · intro m t ht
    dsimp only at ht ⊢
    rw [hfind] at ht
    rw [hgate]
    split_ifs at ht ⊢ with hm
    · rw [← Option.some.inj ht, hseen]
      exact ⟨g, rfl, by omega⟩
    · exact h.within m t ht
  · intro m g₀ hg₀
    dsimp only at hg₀ ⊢
    rw [hgate] at hg₀
    split_ifs at hg₀ with hm
    · rw [← Option.some.inj hg₀]
      omega
    · have := h.past m g₀ hg₀
      omega
  · intro m g₀ hg₀ hlost
    dsimp only at hg₀ hlost ⊢
    rw [hgate] at hg₀
    rw [hfind] at hlost
    split_ifs at hg₀ hlost with hm
    have := h.lost m g₀ hg₀ hlost
    omega

/-- A frame without a sighting, or with one the gate holds back, leaves gate and table alone. -/
theorem Listening.held (h : Listening l) {now : ℕ} (hnow : l.clock ≤ now) (p : Pacer)
    (lock : PeerLock) : Listening { l with pacer := p, lock, clock := now } := by
  refine ⟨h.within, ?_, ?_, h.quiet⟩
  · intro m g hg
    exact Nat.le_trans (h.past m g hg) hnow
  · intro m g hg hlost
    exact Nat.lt_of_lt_of_le (h.lost m g hg hlost) hnow

/-- A peer that is heard is in the table afterwards exactly if the gate admits it. -/
theorem listenFrame_spec (env : Env) (h : Listening l) (bytes : List UInt8) (hnow : l.clock ≤ now)
    (lag : ℕ) :
    Listening (listenFrame env l bytes now lag) ∧ ∀ s, (l.sights bytes).2 = some s →
      ((listenFrame env l bytes now lag).table.peers.find s.mac ≠ none ↔ l.admits s.mac = true) := by
  unfold listenFrame
  cases hs : (l.sights bytes).2 with
  | none =>
    simp only [hs]
    exact ⟨h.held (by omega) _ _, nofun⟩
  | some s =>
    simp only [hs, Option.some.injEq, forall_eq']
    cases hg : l.gate.find s.mac with
    | none =>
      cases hfull : l.gate.full with
      | false =>
        obtain ⟨hpass, hfind⟩ := gateShouldPush_new hg hfull now
        have hpushed := h.pushed hnow lag hfind rfl (rxIngest env l.pacer bytes).1 (l.sights bytes).1
        simp only [hpass, if_true]
        exact ⟨hpushed.1, fun _ => by simp [Listener.admits, hfull], fun _ => hpushed.2⟩
      | true =>
        -- Turned away: a peer the gate does not know is not in the table either.
        rw [gateShouldPush_full hg hfull]
        simp only [Bool.false_eq_true, if_false]
        refine ⟨h.held (by omega) _ _, ?_⟩
        have hout : l.table.peers.find s.mac = none := by
          by_contra hn
          obtain ⟨t, ht⟩ := Option.ne_none_iff_exists'.mp hn
          obtain ⟨g, hg', -⟩ := h.within _ t ht
          rw [hg] at hg'
          cases hg'
        simp [Listener.admits, hg, hfull, hout]
    | some g =>
      have hadmits : l.admits s.mac = true := by simp [Listener.admits, hg]
      obtain ⟨hpass, g', hfind, -, hlast⟩ := gateShouldPush_known hg now
      rw [← hpass] at hlast
      cases hgo : (gateShouldPush l.gate s now).2 with
      | true =>
        rw [hgo, if_pos rfl] at hlast
        have hpushed := h.pushed hnow lag hfind hlast (rxIngest env l.pacer bytes).1 (l.sights bytes).1
        simp only [if_true]
        exact ⟨hpushed.1, fun _ => hadmits, fun _ => hpushed.2⟩
      | false =>
        -- Held back within the refresh window: the table has not had time to withdraw the peer.
        rw [hpass, Bool.or_eq_false_iff] at hgo
        have hsame : gateShouldPush l.gate s now = (l.gate, false) := by
          rw [gateShouldPush_some hg, if_neg (by simp [hgo.1]), if_neg (by simp [hgo.2])]
        have hkept : l.table.peers.find s.mac ≠ none := by
          intro hlost
          have hold := h.lost _ g hg hlost
          have hdue := mt (refreshDue_iff g now).mpr (by simp [hgo.2])
          simp only [discoStaleNs] at hold
          simp only [discoRefreshNs] at hdue
          omega
        rw [hsame]
        simp only [Bool.false_eq_true, if_false]
        exact ⟨h.held (by omega) _ _, fun _ => hadmits, fun _ => hkept⟩

theorem Listening.age (h : Listening l) (hnow : l.clock ≤ now) :
    Listening { l with table := tableAge l.table now, clock := now } := by
  refine ⟨?_, ?_, ?_, h.quiet⟩
  · intro m t ht
    dsimp only at ht
    rw [tableAge_find, Option.filter_eq_some_iff] at ht
    exact h.within m t ht.1
  · intro m g hg
    exact Nat.le_trans (h.past m g hg) hnow
  · intro m g hg hlost
    dsimp only at hlost
    rw [tableAge_find, Option.filter_eq_none_iff] at hlost
    cases ht : l.table.peers.find m with
    | none => exact Nat.lt_of_lt_of_le (h.lost m g hg ht) hnow
    | some t =>
      have hstale := hlost t ht
      simp only [Bool.not_eq_true', Bool.not_eq_false, stale_iff] at hstale
      obtain ⟨g₀, hg₀, hseen⟩ := h.within m t ht
      have hg' : l.gate.find m = some g := hg
      rw [hg'] at hg₀
      obtain rfl := Option.some.inj hg₀
      dsimp only
      omega

theorem Listening.step (env : Env) (h : Listening l) (i : ListenerInput) :
    Listening (listenerStep env l i).1 := by
  cases i with
  | frame bytes elapsed lag => exact (listenFrame_spec env h bytes (by omega) lag).1
  | age elapsed => exact h.age (by omega)
  | other i =>
    cases i with
    | frame bytes => exact h
    | slot | requestRate | requestReestablish | headampSet => exact h.held (Nat.le_refl _) _ _

end Steps

/-! ## Runs -/

/-- A step of the listener. -/
abbrev ListenerEvent := Event Listener ListenerInput Unit

/-- The entries of the table that are not stale. -/
def liveEntries (t : DiscoTable) (now : ℕ) : ℕ := t.peers.entries.countP fun e => !e.stale now

/-- Discovery is not blind to the frame: a peer that is heard while the table holds fewer than
`REAC_DISCO_MAX` live entries is in the table after the drain, and one that is left out has raised the
overflow flag. -/
def NotBlind (e : ListenerEvent) : Prop :=
  ∀ bytes elapsed lag s, e.input = .frame bytes elapsed lag → (e.pre.sights bytes).2 = some s →
    (liveEntries e.pre.table (e.pre.clock + elapsed) < discoMax →
      e.post.table.peers.find s.mac ≠ none) ∧
    (e.post.table.peers.find s.mac = none → e.post.table.overflowed = true)

/-- The frame is of a peer the gate knows or has room for. -/
def Admitted (e : ListenerEvent) : Prop :=
  ∀ bytes elapsed lag s, e.input = .frame bytes elapsed lag → (e.pre.sights bytes).2 = some s →
    e.pre.admits s.mac = true

theorem not_blind_iff (env : Env) (p : Pacer) {is : List ListenerInput} {log : List ListenerEvent}
    {e : ListenerEvent} (he : (listenerMachine env).StepOf { pacer := p } is log e) :
    NotBlind e ↔ Admitted e := by
  obtain ⟨hl, hevent⟩ := (listenerMachine env).trace_invariant_at (H := fun _ l => Listening l)
    (L := fun _ _ => True) (listening_start p) (fun _ _ i h _ => h.step env i) (fun _ _ _ => trivial) he
  rw [hevent]
  have hspec : ∀ bytes elapsed lag, e.input = .frame bytes elapsed lag →
      ∀ s, (e.pre.sights bytes).2 = some s →
        (((listenerMachine env).event e.pre e.input).post.table.peers.find s.mac ≠ none ↔
          e.pre.admits s.mac = true) ∧
        ((listenerMachine env).event e.pre e.input).post.table.overflowed = false := by
    intro bytes elapsed lag hi s hs
    rw [hi]
    have hnow : e.pre.clock ≤ e.pre.clock + elapsed := Nat.le_add_right _ _
    obtain ⟨hl', hfind⟩ := listenFrame_spec env hl bytes hnow lag
    exact ⟨hfind s hs, hl'.quiet⟩
  constructor
  · intro h bytes elapsed lag s hi hs
    obtain ⟨hfind, hquiet⟩ := hspec bytes elapsed lag hi s hs
    apply hfind.mp
    intro hout
    rw [(h bytes elapsed lag s hi hs).2 hout] at hquiet
    cases hquiet
  · intro h bytes elapsed lag s hi hs
    obtain ⟨hfind, -⟩ := hspec bytes elapsed lag hi s hs
    have hin := hfind.mpr (h bytes elapsed lag s hi hs)
    exact ⟨fun _ => hin, fun hout => absurd hout hin⟩

/-- The presence flood of the peer `02:00:00:00:00:n`. -/
def floodFrame (n : UInt8) : List UInt8 :=
  broadcastMac.toList ++ [0x02, 0x00, 0x00, 0x00, 0x00, n, 0x88, 0x19] ++ List.replicate 36 0x00 ++
    [0xc2, 0xea]

/-- Eight peers come and go over a minute; then a ninth is heard. -/
def ninePeers : List ListenerInput :=
  [1, 2, 3, 4, 5, 6, 7, 8].map (fun n => .frame (floodFrame n) 1000000 0) ++ [.age 60000000000]

/-- The desk after the eight have gone. -/
def deafListener : Listener :=
  (listenerMachine deskEnv).run { pacer := pacerOpen deskEnv deskCfg } ninePeers

theorem deafListener_hears :
    ((deafListener.sights (floodFrame 9)).2.map (·.mac)) = some (macAt (floodFrame 9) 6) ∧
      deafListener.table.peers.entries.length = 0 ∧ deafListener.admits (macAt (floodFrame 9) 6) = false := by
  decide +kernel

/-- The ninth peer is left out of an empty table, and the overflow flag stays down. -/
theorem ninth_peer_unseen :
    (deafListener.sights (floodFrame 9)).2.map (·.mac) = some (macAt (floodFrame 9) 6) ∧
      deafListener.table.peers.entries.length = 0 ∧
      (listenerStep deskEnv deafListener (.frame (floodFrame 9) 0 0)).1.table.peers.entries.length = 0 ∧
      (listenerStep deskEnv deafListener (.frame (floodFrame 9) 0 0)).1.table.overflowed = false ∧
      ¬ NotBlind ((listenerMachine deskEnv).event deafListener (.frame (floodFrame 9) 0 0)) := by
  obtain ⟨hs, hempty, hout⟩ := deafListener_hears
  refine ⟨hs, hempty, by decide +kernel, by decide +kernel, ?_⟩
  intro h
  obtain ⟨s, hsight, hmac⟩ := Option.map_eq_some_iff.mp hs
  have hlive : liveEntries deafListener.table (deafListener.clock + 0) < discoMax := by
    rw [liveEntries, List.eq_nil_of_length_eq_zero hempty]
    decide
  have hin := (h (floodFrame 9) 0 0 s rfl hsight).1 hlive
  rw [hmac] at hin
  exact hin (by decide +kernel)

theorem not_blind_iff_ninth :
    NotBlind ((listenerMachine deskEnv).event deafListener (.frame (floodFrame 9) 0 0)) ↔
      Admitted ((listenerMachine deskEnv).event deafListener (.frame (floodFrame 9) 0 0)) :=
  not_blind_iff deskEnv (pacerOpen deskEnv deskCfg)
    ((listenerMachine deskEnv).stepOf_last { pacer := pacerOpen deskEnv deskCfg } ninePeers
      (.frame (floodFrame 9) 0 0))

end Libreac
