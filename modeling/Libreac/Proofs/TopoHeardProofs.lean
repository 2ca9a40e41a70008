import Libreac.Proofs.TopoProofs

/-!
# Proofs: no VLAN is stuck

A VLAN that is heard and not served has a request under way: in the ring, with the caller, or waiting
for its retry. `HeardInv` needs the keys of the cells to be distinct, since an answer is looked up by
name, and the names of the parents to be the ones they were watched under.
-/

namespace Libreac

open Reactive Slots

variable {t t' : Topo} {i : TopoInput} {out : Option TopoEvent} {log : List TopoLogEntry} {c : TopoCell}
  {e : TopoLogEntry}

/-! ## The caller -/

/-- What the caller owes after one more call. -/
theorem owed_concat (log : List TopoLogEntry) (e : TopoLogEntry) :
    owed (log ++ [e]) = match e.input.answers with
      | some k => (owed log).erase k
      | none =>
        owed log ++ (e.out.filter fun ev => ev.verb = .ensure).toList.map fun ev => (ev.parent, ev.vid) := by
  unfold owed
  rw [List.foldl_append]
  rfl

/-- The time a call reports a failure for `k` at. -/
def TopoInput.failure (k : IfName × UInt16) : TopoInput → Option UInt64
  | .ensureFailed name vid now => if (name, vid) = k then some now else none
  | _ => none

/-- When the caller last reported a failure for `k`. -/
def lastFailure (log : List TopoLogEntry) (k : IfName × UInt16) : Option UInt64 :=
  (log.filterMap fun e => e.input.failure k).getLast?

theorem lastFailure_concat (log : List TopoLogEntry) (e : TopoLogEntry) (k : IfName × UInt16) :
    lastFailure (log ++ [e]) k = (e.input.failure k).or (lastFailure log k) := by
  unfold lastFailure
  rw [List.filterMap_append, List.getLast?_append]
  cases h : e.input.failure k with
  | none => simp [h]
  | some now => simp [h]

/-- Only an answer for `k` is a failure for `k`. -/
theorem failure_eq_none {k : IfName × UInt16} (h : i.answers ≠ some k) : i.failure k = none := by
  cases i with
  | ensureFailed name vid now =>
    apply if_neg
    rintro rfl
    exact h rfl
  | watch | unwatch | saw | next | ensured | tick | releaseAll => rfl

/-! ## The invariant -/

/-- A request for the VLAN of the cell is under way, or its retry is set. -/
def UnderWay (log : List TopoLogEntry) (t : Topo) (c : TopoCell) : Prop :=
  ensureOf c.1 c.2.vid ∈ t.ring ∨ (c.1, c.2.vid) ∈ owed log ∨ c.2.retryAfterNs ≠ 0

/-- The retry of a cell is set by the last failure. -/
def RetryOf (log : List TopoLogEntry) (c : TopoCell) : Prop :=
  c.2.retryAfterNs ≠ 0 → ∃ f, lastFailure log (c.1, c.2.vid) = some f ∧ c.2.retryAfterNs = f + topoRetryNs

structure HeardInv (log : List TopoLogEntry) (t : Topo) : Prop where
  names : t.names.Nodup
  keys : (keys cellKey t.cells).Nodup
  heard : ∀ c ∈ t.cells, c.2.state = .heard → UnderWay log t c
  retry : ∀ c ∈ t.cells, c.2.state ≠ .free → RetryOf log c

/-- The call leaves no VLAN stuck: a watched name fits its field, a request finds room, and a retry is
not set to the time that stands for none. -/
def Topo.keepsAsking (t : Topo) : TopoInput → Bool
  | .watch name => name.length ≤ 15
  | .saw name kind vid now => !t.asks name kind vid now || t.ring.length + 1 < topoEvents
  | .ensureFailed name vid now => (t.vlanOf name vid).isNone || now + topoRetryNs ≠ 0
  | _ => true

/-- A cell that no answer of this call is for keeps its request. -/
theorem UnderWay.other (h : UnderWay log e.pre c) (hans : e.input.answers ≠ some (c.1, c.2.vid))
    (hring : ∀ ev, ev.verb = .ensure → ev ∈ e.pre.ring → ev ∈ e.post.ring ∨ e.out = some ev)
    (hout : e.input.answers ≠ none → e.out = none) : UnderWay (log ++ [e]) e.post c := by
  unfold UnderWay at h ⊢
  rw [owed_concat]
  rcases h with hmem | howed | hretry
  · rcases hring _ rfl hmem with hin | hhand
    · exact .inl hin
    · right
      left
      cases ha : e.input.answers with
      | some k =>
        rw [hout (by rw [ha]; nofun)] at hhand
        cases hhand
      | none =>
        rw [hhand]
        simp [ensureOf]
  · right
    left
    cases ha : e.input.answers with
    | some k =>
      have hne : (c.1, c.2.vid) ≠ k := by
        rintro rfl
        exact hans ha
      exact (List.mem_erase_of_ne hne).mpr howed
    | none => exact List.mem_append_left _ howed
  · exact .inr (.inr hretry)

theorem RetryOf.other (h : RetryOf log c) (hans : e.input.answers ≠ some (c.1, c.2.vid)) :
    RetryOf (log ++ [e]) c := by
  intro hretry
  rw [lastFailure_concat, failure_eq_none hans]
  exact h hretry

theorem mem_queue {ev : TopoEvent} (es : List TopoEvent) (h : ev ∈ t.ring) : ev ∈ t.queue es :=
  List.mem_append_left _ h

theorem mem_queue_self {ev : TopoEvent} (h : t.ring.length + 1 < topoEvents) : ev ∈ t.queue [ev] := by
  have hroom : topoEvents - 1 - t.ring.length = (topoEvents - 2 - t.ring.length) + 1 := by omega
  rw [Topo.queue, hroom, List.take_succ_cons]
  exact List.mem_append_right _ List.mem_cons_self

/-- A name that is not found is not watched. -/
theorem parentOf_none {name : IfName} (h : t.parentOf name = none) : name ∉ t.names := by
  intro hmem
  obtain ⟨p, hp, hkey⟩ := mem_keys.mp hmem
  unfold TopoParent.key at hkey
  split_ifs at hkey with hne
  obtain rfl := Option.some.inj hkey
  exact List.find?_eq_none.mp h p hp (is_iff.mpr ⟨hne, rfl⟩)

theorem keys_free {cells : List TopoCell} (h : ∀ c ∈ cells, c.2.state = .free) :
    keys cellKey cells = [] := by
  unfold keys
  rw [List.filterMap_eq_nil_iff]
  intro c hc
  rw [cellKey, if_pos (h c hc)]

/-! ## Steps -/

/-- A call that keeps names and keys distinct, drops no request, and under which every cell in use is
an old one that is not answered or has what it needs. -/
theorem HeardInv.call (h : HeardInv log e.pre) (hnames : e.post.names.Nodup)
    (hkeys : (Slots.keys cellKey e.post.cells).Nodup)
    (hring : ∀ ev, ev.verb = .ensure → ev ∈ e.pre.ring → ev ∈ e.post.ring ∨ e.out = some ev)
    (hout : e.input.answers ≠ none → e.out = none)
    (hcells : ∀ c ∈ e.post.cells, c.2.state ≠ .free →
      (c ∈ e.pre.cells ∧ e.input.answers ≠ some (c.1, c.2.vid)) ∨
      ((c.2.state = .heard → UnderWay (log ++ [e]) e.post c) ∧ RetryOf (log ++ [e]) c)) :
    HeardInv (log ++ [e]) e.post := by
  refine ⟨hnames, hkeys, ?_, ?_⟩
  · intro c hc hheard
    rcases hcells c hc (by rw [hheard]; nofun) with ⟨hold, hans⟩ | ⟨hnew, -⟩
    · exact (h.heard c hold hheard).other hans hring hout
    · exact hnew hheard
  · intro c hc hfree
    rcases hcells c hc hfree with ⟨hold, hans⟩ | ⟨-, hnew⟩
    · exact (h.retry c hold hfree).other hans
    · exact hnew

theorem key_of_cell {b : TopoCell} (hfree : b.2.state ≠ .free) : cellKey b = some (b.1, b.2.vid) :=
  if_neg hfree

/-- The cells around the one that is answered have other keys. -/
theorem HeardInv.other_key (h : HeardInv log t) {A B : List TopoCell} {b : TopoCell}
    (hc : t.cells = A ++ b :: B) (hfree : b.2.state ≠ .free) (hother : c ∈ A ∨ c ∈ B)
    (hcfree : c.2.state ≠ .free) : (b.1, b.2.vid) ≠ (c.1, c.2.vid) := by
  have hkeys := h.keys
  rw [hc] at hkeys
  have hne := key_ne_of_nodup (key_of_cell hfree) hkeys c hother
  rw [key_of_cell hcfree] at hne
  intro heq
  exact hne (by rw [heq])

theorem mem_middle {A B : List TopoCell} {b : TopoCell} (hc : c ∈ A ++ b :: B) : c = b ∨ c ∈ A ∨ c ∈ B := by
  simp only [List.mem_append, List.mem_cons] at hc
  tauto

theorem mem_of_middle {A B : List TopoCell} {b : TopoCell} (hc : c ∈ A ∨ c ∈ B) : c ∈ A ++ b :: B := by
  simp only [List.mem_append, List.mem_cons]
  tauto

/-- A call that changes the cell of one VLAN and answers at most that one. -/
theorem HeardInv.one_cell (h : HeardInv log e.pre) {A B : List TopoCell} {b b' : TopoCell}
    (hc : e.pre.cells = A ++ b :: B) (hc' : e.post.cells = A ++ b' :: B)
    (hnames : e.post.names = e.pre.names) (hkeys : (Slots.keys cellKey (A ++ b' :: B)).Nodup)
    (hring : ∀ ev, ev ∈ e.pre.ring → ev ∈ e.post.ring) (hout : e.out = none)
    (hans : e.input.answers = none ∨ b.2.state ≠ .free ∧ e.input.answers = some (b.1, b.2.vid))
    (hheard : b'.2.state = .heard → UnderWay (log ++ [e]) e.post b')
    (hretry : RetryOf (log ++ [e]) b') : HeardInv (log ++ [e]) e.post := by
  apply h.call
  · rw [hnames]
    exact h.names
  · rw [hc']
    exact hkeys
  · exact fun ev _ hmem => .inl (hring ev hmem)
  · exact fun _ => hout
  · intro c hcell hfree
    rw [hc'] at hcell
    rcases mem_middle hcell with rfl | hother
    · exact .inr ⟨hheard, hretry⟩
    · left
      refine ⟨hc ▸ mem_of_middle hother, ?_⟩
      rcases hans with hnone | ⟨hbfree, hkey⟩
      · rw [hnone]
        nofun
      · rw [hkey]
        intro heq
        exact h.other_key hc hbfree hother hfree (Option.some.inj heq)

/-- A call after which every cell in use was there before, and which answers none of them. -/
theorem HeardInv.fewer (h : HeardInv log e.pre) (hnames : e.post.names.Nodup)
    (hkeys : (Slots.keys cellKey e.post.cells).Nodup)
    (hring : ∀ ev, ev.verb = .ensure → ev ∈ e.pre.ring → ev ∈ e.post.ring ∨ e.out = some ev)
    (hout : e.input.answers ≠ none → e.out = none)
    (hans : ∀ k, e.input.answers = some k → k ∉ Slots.keys cellKey e.pre.cells)
    (hcells : ∀ c ∈ e.post.cells, c.2.state ≠ .free → c ∈ e.pre.cells) :
    HeardInv (log ++ [e]) e.post := by
  apply h.call hnames hkeys hring hout
  intro c hc hfree
  have hold := hcells c hc hfree
  refine .inl ⟨hold, ?_⟩
  intro hk
  exact hans _ hk (mem_keys.mpr ⟨c, hold, key_of_cell hfree⟩)

/-- The same for a call that is no answer. -/
theorem HeardInv.quiet (h : HeardInv log e.pre) (hi : e.input.answers = none) (hnames : e.post.names.Nodup)
    (hkeys : (Slots.keys cellKey e.post.cells).Nodup)
    (hring : ∀ ev, ev.verb = .ensure → ev ∈ e.pre.ring → ev ∈ e.post.ring ∨ e.out = some ev)
    (hcells : ∀ c ∈ e.post.cells, c.2.state ≠ .free → c ∈ e.pre.cells) :
    HeardInv (log ++ [e]) e.post := by
  refine h.fewer hnames hkeys hring (fun hne => absurd hi hne) ?_ hcells
  intro k hk
  rw [hi] at hk
  cases hk

/-! ## One lemma for each move -/

/-- A call under which no cell, name or request changes. -/
theorem HeardInv.still (h : HeardInv log t) (hi : i.answers = none) (hc : t'.cells = t.cells)
    (hn : t'.names = t.names) (hr : t'.ring = t.ring) :
    HeardInv (log ++ [⟨t, i, none, t'⟩]) t' := by
  refine h.quiet (e := ⟨t, i, none, t'⟩) hi (by rw [hn]; exact h.names) (by rw [hc]; exact h.keys) ?_ ?_
  · intro ev _ hmem
    rw [hr]
    exact .inl hmem
  · intro c hcell _
    rw [hc] at hcell
    exact hcell

/-- The cells of a parent that is new are free. -/
theorem cells_of_new {name : IfName} : ∀ c ∈ ({ name } : TopoParent).cells, c.2.state = .free := by
  intro c hcell
  rw [TopoParent.cells] at hcell
  split_ifs at hcell
  · cases hcell
  · obtain ⟨v, hv, rfl⟩ := List.mem_map.mp hcell
    rw [List.eq_of_mem_replicate hv]

/-- A parent that is watched brings its name, if that fits its field, and no cell in use. -/
theorem HeardInv.watched (h : HeardInv log t) {name : IfName} {A B : List TopoCell} {L R : List IfName}
    {p : TopoParent} (hfit : name.length ≤ 15) (hnew : t.parentOf name = none)
    (hp : p = { name := ifnamCopy name }) (hc : t.cells = A ++ B) (hc' : t'.cells = A ++ (p.cells ++ B))
    (hn : t.names = L ++ R) (hn' : t'.names = L ++ (p.key.toList ++ R)) (hr : t'.ring = t.ring) :
    HeardInv (log ++ [⟨t, .watch name, none, t'⟩]) t' := by
  have hcopy : ifnamCopy name = name := List.take_of_length_le hfit
  have hfree : ∀ c ∈ p.cells, c.2.state = .free := by
    rw [hp]
    exact cells_of_new
  have hnames := h.names
  have hkeys := h.keys
  refine h.quiet (e := ⟨t, .watch name, none, t'⟩) rfl ?_ ?_ ?_ ?_
  · rw [hn'] at ⊢
    rw [hn] at hnames
    cases hkey : p.key with
    | none => exact hnames
    | some k =>
      have hk : k = name := by
        rw [hp, TopoParent.key] at hkey
        split_ifs at hkey
        rw [← Option.some.inj hkey]
        exact hcopy
      have habsent := parentOf_none hnew
      rw [hn] at habsent
      rw [hk]
      exact List.nodup_middle.mpr (List.nodup_cons.mpr ⟨habsent, hnames⟩)
  · rw [hc'] at ⊢
    rw [hc, keys_append] at hkeys
    rw [keys_append, keys_append, keys_free hfree]
    exact hkeys
  · intro ev _ hmem
    rw [hr]
    exact .inl hmem
  · intro c hcell hused
    rw [hc'] at hcell
    rw [hc]
    simp only [List.mem_append] at hcell ⊢
    rcases hcell with hA | hp' | hB
    · exact .inl hA
    · exact absurd (hfree c hp') hused
    · exact .inr hB

/-- A parent that goes takes its name and its cells with it. -/
theorem HeardInv.unwatched (h : HeardInv log t) {name : IfName} {A B C : List TopoCell} {L R : List IfName}
    {es : List TopoEvent} (hc : t.cells = A ++ (C ++ B)) (hc' : t'.cells = A ++ B)
    (hn : t.names = L ++ name :: R) (hn' : t'.names = L ++ R) (hr : t'.ring = t.queue es) :
    HeardInv (log ++ [⟨t, .unwatch name, none, t'⟩]) t' := by
  have hnames := h.names
  have hkeys := h.keys
  rw [hn, List.nodup_middle] at hnames
  rw [hc] at hkeys
  have hsub : (A ++ B).Sublist (A ++ (C ++ B)) :=
    (List.Sublist.refl A).append (List.sublist_append_right C B)
  refine h.quiet (e := ⟨t, .unwatch name, none, t'⟩) rfl ?_ ?_ ?_ ?_
  · rw [hn']
    exact hnames.of_cons
  · rw [hc']
    exact hkeys.sublist (hsub.filterMap _)
  · intro ev _ hmem
    rw [hr]
    exact .inl (mem_queue _ hmem)
  · intro c hcell _
    rw [hc'] at hcell
    rw [hc]
    exact hsub.subset hcell

section
variable {name : IfName} {kind : TopoKind} {vid : UInt16} {now : UInt64} {A B : List TopoCell} {v : TopoVlan}

/-- A frame of a VLAN that is tracked moves the time it was last heard. -/
theorem HeardInv.refreshed (h : HeardInv log t) (hv : v.state ≠ .free) (hc : t.cells = A ++ (name, v) :: B)
    (hc' : t'.cells = A ++ (name, { v with lastNs := now }) :: B) (hn : t'.names = t.names)
    (hr : t'.ring = t.ring) : HeardInv (log ++ [⟨t, .saw name kind vid now, none, t'⟩]) t' := by
  have hold : (name, v) ∈ t.cells := by
    rw [hc]
    exact List.mem_append_right _ List.mem_cons_self
  have hkeys := h.keys
  rw [hc] at hkeys
  refine h.one_cell (e := ⟨t, .saw name kind vid now, none, t'⟩) hc hc' hn ?_
    (by rw [hr]; exact fun _ => id) rfl (.inl rfl) ?_ ?_
  · exact nodup_keys_congr (b := (name, v)) rfl hkeys
  · intro hheard
    have hway := h.heard _ hold hheard
    refine UnderWay.other (c := (name, { v with lastNs := now })) hway (by rintro ⟨⟩) ?_ (fun _ => rfl)
    intro ev _ hmem
    rw [hr]
    exact .inl hmem
  · have hretry := h.retry _ hold hv
    exact RetryOf.other (c := (name, { v with lastNs := now })) hretry (by rintro ⟨⟩)

/-- A retry that is due puts its request in the ring, which has room. -/
theorem HeardInv.retried (h : HeardInv log t) (hv : v.vid = vid) (hc : t.cells = A ++ (name, v) :: B)
    (hc' : t'.cells = A ++ (name, { v with lastNs := now, retryAfterNs := 0 }) :: B)
    (hn : t'.names = t.names) (hr : t'.ring = t.queue [ensureOf name vid])
    (hroom : t.ring.length + 1 < topoEvents) :
    HeardInv (log ++ [⟨t, .saw name kind vid now, none, t'⟩]) t' := by
  have hkeys := h.keys
  rw [hc] at hkeys
  refine h.one_cell (e := ⟨t, .saw name kind vid now, none, t'⟩) hc hc' hn ?_ ?_ rfl (.inl rfl)
    (fun _ => .inl ?_) ?_
  · exact nodup_keys_congr (b := (name, v)) rfl hkeys
  · intro ev hmem
    rw [hr]
    exact mem_queue _ hmem
  · rw [hr, ← hv]
    exact mem_queue_self hroom
  · intro hzero
    exact absurd rfl hzero

/-- A VLAN heard for the first time takes a free cell under a key that no other cell has. -/
theorem HeardInv.firstHeard (h : HeardInv log t) (hnew : t.vlanOf name vid = none) (hv : v.state = .free)
    (hc : t.cells = A ++ (name, v) :: B)
    (hc' : t'.cells = A ++ (name, { vid, state := .heard, lastNs := now }) :: B)
    (hn : t'.names = t.names) (hr : t'.ring = t.queue [ensureOf name vid])
    (hroom : t.ring.length + 1 < topoEvents) :
    HeardInv (log ++ [⟨t, .saw name kind vid now, none, t'⟩]) t' := by
  have hkeys := h.keys
  have habsent := key_not_mem h.names hnew
  rw [hc] at hkeys habsent
  refine h.one_cell (e := ⟨t, .saw name kind vid now, none, t'⟩) hc hc' hn ?_ ?_ rfl (.inl rfl)
    (fun _ => .inl ?_) ?_
  · have hfree : cellKey (name, v) = none := if_pos hv
    exact nodup_keys_insert hfree (key_of_cell (by simp)) hkeys habsent
  · intro ev hmem
    rw [hr]
    exact mem_queue _ hmem
  · rw [hr]
    exact mem_queue_self hroom
  · intro hzero
    exact absurd rfl hzero

/-- The answer that a netdev is there: its cell is no longer heard. -/
theorem HeardInv.ensured {minted : Bool} (h : HeardInv log t) (hv : v.state ≠ .free ∧ v.vid = vid)
    (hc : t.cells = A ++ (name, v) :: B)
    (hc' : t'.cells = A ++ (name, { v with state := .served, minted, retryAfterNs := 0 }) :: B)
    (hn : t'.names = t.names) (hr : t'.ring = t.ring) :
    HeardInv (log ++ [⟨t, .ensured name vid minted, none, t'⟩]) t' := by
  have hkeys := h.keys
  rw [hc] at hkeys
  refine h.one_cell (e := ⟨t, .ensured name vid minted, none, t'⟩) hc hc' hn ?_
    (by rw [hr]; exact fun _ => id) rfl (.inr ⟨hv.1, ?_⟩) (by rintro ⟨⟩) ?_
  · refine nodup_keys_congr (b := (name, v)) ?_ hkeys
    rw [key_of_cell (by simp), key_of_cell hv.1]
  · rw [hv.2]
    rfl
  · intro hzero
    exact absurd rfl hzero

/-- The answer that a netdev could not be made: its cell is heard and its retry is set. -/
theorem HeardInv.failed (h : HeardInv log t) (hv : v.state ≠ .free ∧ v.vid = vid)
    (hc : t.cells = A ++ (name, v) :: B)
    (hc' : t'.cells = A ++ (name, { v with
      state := .heard, minted := false, retryAfterNs := now + topoRetryNs }) :: B)
    (hn : t'.names = t.names) (hr : t'.ring = t.ring) (hlater : now + topoRetryNs ≠ 0) :
    HeardInv (log ++ [⟨t, .ensureFailed name vid now, none, t'⟩]) t' := by
  have hkeys := h.keys
  rw [hc] at hkeys
  refine h.one_cell (e := ⟨t, .ensureFailed name vid now, none, t'⟩) hc hc' hn ?_
    (by rw [hr]; exact fun _ => id) rfl (.inr ⟨hv.1, ?_⟩) (fun _ => .inr (.inr hlater)) ?_
  · refine nodup_keys_congr (b := (name, v)) ?_ hkeys
    rw [key_of_cell (by simp), key_of_cell hv.1]
  · rw [hv.2]
    rfl
  · intro _
    refine ⟨now, ?_, rfl⟩
    rw [lastFailure_concat]
    simp [TopoInput.failure, hv.2]

end

/-- The request at the head of the ring goes to the caller. -/
theorem HeardInv.handedOut (h : HeardInv log t) {ev : TopoEvent} (hc : t'.cells = t.cells)
    (hn : t'.names = t.names) (hr : t.ring = ev :: t'.ring) :
    HeardInv (log ++ [⟨t, .next, some ev, t'⟩]) t' := by
  refine h.quiet (e := ⟨t, .next, some ev, t'⟩) rfl (by rw [hn]; exact h.names)
    (by rw [hc]; exact h.keys) ?_ ?_
  · intro ev' _ hmem
    dsimp only at hmem
    rw [hr] at hmem
    rcases List.mem_cons.mp hmem with rfl | hmem
    · exact .inr rfl
    · exact .inl hmem
  · intro c hcell _
    rw [hc] at hcell
    exact hcell

/-- An answer for a VLAN that is not tracked. -/
theorem HeardInv.untracked (h : HeardInv log t) {name : IfName} {vid : UInt16}
    (hi : i.answers = some (name, vid)) (hnew : t.vlanOf name vid = none) :
    HeardInv (log ++ [⟨t, i, none, t⟩]) t := by
  refine h.fewer (e := ⟨t, i, none, t⟩) h.names h.keys (fun _ _ hmem => .inl hmem) (fun _ => rfl) ?_
    (fun _ hcell _ => hcell)
  intro k hk
  obtain rfl := Option.some.inj (hi.symm.trans hk)
  exact key_not_mem h.names hnew

/-- Cells that are let go are free, and the others stay. -/
theorem HeardInv.released (h : HeardInv log t) {pick : TopoVlan → Bool} {es : List TopoEvent}
    (hi : i.answers = none) (hc' : t'.cells = t.cells.map fun c => if pick c.2 then (c.1, {}) else c)
    (hn : t'.names = t.names) (hr : t'.ring = t.queue es) :
    HeardInv (log ++ [⟨t, i, none, t'⟩]) t' := by
  refine h.quiet (e := ⟨t, i, none, t'⟩) hi (by rw [hn]; exact h.names) ?_ ?_ ?_
  · rw [hc']
    refine h.keys.sublist (keys_map_sublist ?_ t.cells)
    intro c
    split_ifs
    · exact .inl rfl
    · exact .inr rfl
  · intro ev _ hmem
    rw [hr]
    exact .inl (mem_queue _ hmem)
  · intro c hcell hused
    rw [hc'] at hcell
    obtain ⟨b, hb, rfl⟩ := List.mem_map.mp hcell
    split_ifs at hused ⊢
    · exact absurd rfl hused
    · exact hb

/-- One call. -/
theorem HeardInv.step (h : HeardInv log e.pre) (hmove : TopoMove e.pre e.input e.post e.out)
    (hok : e.pre.keepsAsking e.input = true) : HeardInv (log ++ [e]) e.post := by
  obtain ⟨t, i, out, t'⟩ := e
  dsimp only at h hmove hok ⊢
  cases hmove with
  | still hi hc hn hr => exact h.still hi hc hn hr
  | watched hnew hp hc hc' hn hn' hr =>
    exact h.watched (of_decide_eq_true hok) hnew hp hc hc' hn hn' hr
  | unwatched hc hc' hn hn' hes hr => exact h.unwatched hc hc' hn hn' hr
  | refreshed hv hwait hc hc' hn hr => exact h.refreshed hv.1 hc hc' hn hr
  | retried hv hc hc' hn hask hr =>
    have hroom : t.ring.length + 1 < topoEvents := by simpa [Topo.keepsAsking, hask] using hok
    exact h.retried hv.2 hc hc' hn hr hroom
  | heard hnew hv hc hc' hn hask hr =>
    have hroom : t.ring.length + 1 < topoEvents := by simpa [Topo.keepsAsking, hask] using hok
    exact h.firstHeard hnew hv hc hc' hn hr hroom
  | next hc hn hr => exact h.handedOut hc hn hr
  | untracked hi hnew => exact h.untracked hi hnew
  | ensured hfind hv hc hc' hn hr => exact h.ensured hv hc hc' hn hr
  | @failed name vid now _ A B v hfind hv hc hc' hn hr =>
    have hlater : now + topoRetryNs ≠ 0 := by simpa [Topo.keepsAsking, hfind] using hok
    exact h.failed hv hc hc' hn hr hlater
  | released hi hpick hc' hn hes hr => exact h.released hi hc' hn hr

/-! ## The retry -/

/-- A cell in use is the one its key finds. -/
theorem HeardInv.vlanOf (h : HeardInv log t) {name : IfName} {v : TopoVlan} (hc : (name, v) ∈ t.cells)
    (hfree : v.state ≠ .free) : t.vlanOf name v.vid = some v := by
  cases hfind : t.vlanOf name v.vid with
  | none =>
    have hmem : (name, v.vid) ∈ Slots.keys cellKey t.cells := mem_keys.mpr ⟨_, hc, key_of_cell hfree⟩
    exact absurd hmem (key_not_mem h.names hfind)
  | some w =>
    obtain ⟨hwfree, hwvid, A, B, hcells, -⟩ := vlanOf_cell hfind
    have hin := hc
    rw [hcells] at hin
    rcases mem_middle hin with heq | hother
    · rw [(Prod.mk.inj heq).2]
    · have hne := h.other_key hcells hwfree hother hfree
      exact absurd (by rw [hwvid]) hne

theorem topoSawVlan_ring {t₁ : Topo} {p : TopoParent} {vid : UInt16} {now : UInt64} {v : TopoVlan}
    (hfind : p.vlans.find? (TopoVlan.is vid) = some v)
    (hdue : v.state = .heard ∧ v.retryAfterNs ≠ 0 ∧ v.retryAfterNs ≤ now) :
    (topoSawVlan t₁ p vid now).ring = t₁.queue [ensureOf p.name vid] := by
  unfold topoSawVlan
  rw [hfind]
  dsimp only
  rw [if_pos hdue]
  exact emit_queue _ _

/-- A frame of a VLAN whose retry is due asks for its netdev. -/
theorem topoSaw_due {name : IfName} {kind : TopoKind} {vid : UInt16} {now : UInt64} {v : TopoVlan}
    (hkind : kind = .tagged ∨ kind = .taggedOther) (hvid : vid ≠ 0) (hfind : t.vlanOf name vid = some v)
    (hdue : v.state = .heard ∧ v.retryAfterNs ≠ 0 ∧ v.retryAfterNs ≤ now) :
    t.asks name kind vid now = true ∧
      (topoSaw t name kind vid now).ring = t.queue [ensureOf name vid] := by
  obtain ⟨p, hp, hv⟩ := Option.bind_eq_some_iff.mp hfind
  obtain ⟨hname, -⟩ := parentOf_name hp
  constructor
  · simp [Topo.asks, hp, hkind, hvid, hv, hdue]
  · unfold topoSaw
    rw [hp]
    rcases hkind with rfl | rfl
    · dsimp only
      rw [if_neg hvid, topoSawVlan_ring hv hdue, hname]
      rfl
    · dsimp only
      rw [if_neg hvid, topoSawVlan_ring hv hdue, hname]

/-- After a step every VLAN that is heard has a request under way or a retry set; and a frame of a
VLAN without a request, no earlier than the retry window after its last failure, makes one. -/
structure AskedFor (log : List TopoLogEntry) (e : TopoLogEntry) : Prop where
  underWay : ∀ c ∈ e.post.cells, c.2.state = .heard → UnderWay (log ++ [e]) e.post c
  again : ∀ name kind vid now v, e.input = .saw name kind vid now →
    (kind = .tagged ∨ kind = .taggedOther) → vid ≠ 0 →
    (name, v) ∈ e.pre.cells → v.vid = vid → v.state = .heard →
    ensureOf name vid ∉ e.pre.ring → (name, vid) ∉ owed log →
    ∃ f, lastFailure log (name, vid) = some f ∧
      (f.toNat + topoRetryNs.toNat ≤ now.toNat → ensureOf name vid ∈ e.post.ring)

theorem heardInv_init : HeardInv [] topoInit := by
  have hcells : topoInit.cells = [] := rfl
  refine ⟨List.nodup_nil, List.nodup_nil, ?_, ?_⟩
  · rw [hcells]
    exact nofun
  · rw [hcells]
    exact nofun

theorem askedFor_step (h : HeardInv log t) (hok : t.keepsAsking i = true) :
    AskedFor log (topoMachine.event t i) := by
  have hpost := h.step (e := topoMachine.event t i) (topoStep_move t i) hok
  refine ⟨hpost.heard, ?_⟩
  rintro name kind vid now v hinput hkind hvid hc rfl hheard hring howed
  dsimp only [Machine.event_input] at hinput
  subst hinput
  have hfree : v.state ≠ .free := by
    rw [hheard]
    nofun
  have hretry : v.retryAfterNs ≠ 0 := by
    rcases h.heard _ hc hheard with hin | how | hretry
    · exact absurd hin hring
    · exact absurd how howed
    · exact hretry
  obtain ⟨f, hf, heq⟩ := h.retry _ hc hfree hretry
  refine ⟨f, hf, ?_⟩
  intro hlate
  have hle : v.retryAfterNs ≤ now := by
    have hnow := now.toNat_lt
    rw [heq, UInt64.le_iff_toNat_le, UInt64.toNat_add, Nat.mod_eq_of_lt (by omega)]
    exact hlate
  obtain ⟨hask, hqueue⟩ := topoSaw_due hkind hvid (h.vlanOf hc hfree) ⟨hheard, hretry, hle⟩
  have hroom : t.ring.length + 1 < topoEvents := by simpa [Topo.keepsAsking, hask] using hok
  have hmem : ensureOf name v.vid ∈ t.queue [ensureOf name v.vid] := mem_queue_self hroom
  rw [← hqueue] at hmem
  exact hmem

/-- In every run whose calls leave no VLAN stuck, every VLAN that is heard is asked for. -/
theorem heard_vlans_asked_for (is : List TopoInput)
    (hok : ∀ e ∈ topoMachine.trace topoInit is, e.pre.keepsAsking e.input = true) :
    ∀ log e, topoMachine.StepOf topoInit is log e → AskedFor log e := by
  intro log e he
  obtain ⟨hinv, heq⟩ := topoMachine.trace_invariant_at (H := HeardInv)
    (L := fun _ e => e.pre.keepsAsking e.input = true) heardInv_init
    (fun log t i h hL => h.step (e := topoMachine.event t i) (topoStep_move t i) hL)
    (fun log e he => hok e (he.mem_trace _)) he
  have hstep := hok e (he.mem_trace _)
  rw [heq]
  exact askedFor_step hinv hstep

/-- A VLAN is heard, and its netdev cannot be made. -/
def failedRun : List TopoInput :=
  [.watch eth0, .saw eth0 .tagged 11 1, .next, .ensureFailed eth0 11 2]

/-- The frame ten seconds after the failure asks again. -/
theorem failed_vlan_asked_again :
    AskedFor (topoMachine.trace topoInit failedRun)
      (topoMachine.event (topoMachine.run topoInit failedRun) (.saw eth0 .tagged 11 10000000002)) :=
  heard_vlans_asked_for (failedRun ++ [.saw eth0 .tagged 11 10000000002]) (by decide +kernel) _ _
    (topoMachine.stepOf_last ..)

/-- The name `eth1`. -/
def eth1 : IfName := [0x65, 0x74, 0x68, 0x31]

/-- Two trunks with sixteen VLANs each, heard before the caller looks at the ring. -/
def thirtyTwoVlans : List TopoInput :=
  [.watch eth0, .watch eth1] ++ (List.range 16).map (fun n => .saw eth0 .tagged (n + 1).toUInt16 1) ++
    (List.range 16).map fun n => .saw eth1 .tagged (n + 1).toUInt16 1

/-- The ring holds 31 requests; the last VLAN is heard, and nothing is under way for it. -/
theorem thirtySecond_vlan_stuck :
    AnswersTaken thirtyTwoVlans ∧
      ¬ ∀ log e, topoMachine.StepOf topoInit thirtyTwoVlans log e → AskedFor log e := by
  constructor
  · exact topoMachine.forall_stepOf (by decide +kernel)
  · intro hasked
    have hlast := (hasked _ _ (topoMachine.stepOf_last topoInit (thirtyTwoVlans.take 33)
      (.saw eth1 .tagged 16 1))).underWay (eth1, { vid := 16, state := .heard, lastNs := 1 })
    revert hlast
    unfold UnderWay
    decide +kernel

end Libreac
