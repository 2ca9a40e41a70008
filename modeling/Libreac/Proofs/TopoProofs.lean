import Mathlib.Tactic.SplitIfs
import Libreac.Topo

/-!
# Proofs: the VLANs behind a trunk

The table is looked at as the list of its cells, the slots of every watched parent. `TopoMove` says
once what each call does to the cells and to the ring; what becomes of the netdevs and of the requests
follows from it.
-/

namespace Libreac

open Reactive Slots

variable {t t' : Topo} {name : IfName} {vid : UInt16}

/-! ## Cells -/

/-- A slot with the name of its parent. -/
abbrev TopoCell := IfName × TopoVlan

def TopoParent.cells (p : TopoParent) : List TopoCell :=
  if p.name = [] then [] else p.vlans.map fun v => (p.name, v)

/-- The slots of the watched parents. -/
def Topo.cells (t : Topo) : List TopoCell := t.parents.flatMap TopoParent.cells

/-- What a cell in use is looked up by. -/
def cellKey (c : TopoCell) : Option (IfName × UInt16) :=
  if c.2.state = .free then none else some (c.1, c.2.vid)

def TopoParent.key (p : TopoParent) : Option IfName := if p.name = [] then none else some p.name

/-- The names of the watched parents. -/
def Topo.names (t : Topo) : List IfName := keys TopoParent.key t.parents

theorem cellKey_eq_some {c : TopoCell} {k : IfName × UInt16} :
    cellKey c = some k ↔ c.2.state ≠ .free ∧ c.1 = k.1 ∧ c.2.vid = k.2 := by
  obtain ⟨name, vid⟩ := k
  unfold cellKey
  split_ifs with hfree
  · simp [hfree]
  · simp [hfree]

theorem is_iff {p : TopoParent} : TopoParent.is name p = true ↔ p.name ≠ [] ∧ p.name = name :=
  decide_eq_true_iff

theorem parentOf_name {p : TopoParent} (h : t.parentOf name = some p) : p.name = name ∧ p.name ≠ [] := by
  obtain ⟨hne, heq⟩ := is_iff.mp (List.find?_some h)
  exact ⟨heq, hne⟩

/-- Writing to a watched parent changes its own cells. -/
theorem setParent_cells {p : TopoParent} (h : t.parentOf name = some p) :
    ∃ A B, t.cells = A ++ (p.cells ++ B) ∧ ∀ f, (t.setParent name f).cells = A ++ ((f p).cells ++ B) :=
  flatMap_alterFirst TopoParent.cells h

/-- Writing to a slot of a watched parent changes its own cell. -/
theorem setParent_slot {p : TopoParent} (h : t.parentOf name = some p) {pick : TopoVlan → Bool}
    {v : TopoVlan} (hv : p.vlans.find? pick = some v) :
    ∃ A B, t.cells = A ++ (name, v) :: B ∧ ∀ f,
      (t.setParent name fun p => { p with vlans := alterFirst pick f p.vlans }).cells
        = A ++ (name, f v) :: B := by
  obtain ⟨hname, hne⟩ := parentOf_name h
  obtain ⟨A, B, hcells, hset⟩ := setParent_cells h
  obtain ⟨l₁, l₂, hl, hf⟩ := alterFirst_split hv
  refine ⟨A ++ l₁.map (fun v => (name, v)), l₂.map (fun v => (name, v)) ++ B, ?_, ?_⟩
  · rw [hcells, TopoParent.cells, if_neg hne, hl, hname]
    simp
  · intro f
    rw [hset, TopoParent.cells, if_neg hne, hf, hname]
    simp

theorem vlanOf_cell {v : TopoVlan} (h : t.vlanOf name vid = some v) :
    v.state ≠ .free ∧ v.vid = vid ∧ ∃ A B, t.cells = A ++ (name, v) :: B ∧
      ∀ f, (t.setVlan name vid f).cells = A ++ (name, f v) :: B := by
  obtain ⟨p, hp, hv⟩ := Option.bind_eq_some_iff.mp h
  have his : v.state ≠ .free ∧ v.vid = vid := by simpa [TopoVlan.is] using List.find?_some hv
  exact ⟨his.1, his.2, setParent_slot hp hv⟩

/-! ## Names -/

theorem setParent_names {f : TopoParent → TopoParent} (hf : ∀ p, (f p).name = p.name) :
    (t.setParent name f).names = t.names := by
  unfold Topo.names Topo.setParent
  cases h : t.parentOf name with
  | none => rw [alterFirst_of_none h]
  | some p =>
    obtain ⟨l₁, l₂, hl, halter⟩ := alterFirst_split h
    rw [halter, hl]
    exact keys_congr (by simp only [TopoParent.key, hf])

/-- The names around the slot of a watched parent. -/
theorem parentOf_split {p : TopoParent} (h : t.parentOf name = some p) :
    ∃ L R, t.names = L ++ name :: R ∧ (t.setParent name fun _ => {}).names = L ++ R := by
  obtain ⟨hname, hne⟩ := parentOf_name h
  obtain ⟨l₁, l₂, hl, halter⟩ := alterFirst_split h
  refine ⟨keys TopoParent.key l₁, keys TopoParent.key l₂, ?_, ?_⟩
  · unfold Topo.names
    rw [hl, keys_middle_some (by rw [TopoParent.key, if_neg hne, hname])]
  · unfold Topo.names Topo.setParent
    rw [halter, keys_middle_none rfl]

theorem mem_cells {c : TopoCell} :
    c ∈ t.cells ↔ ∃ p ∈ t.parents, p.name ≠ [] ∧ c.1 = p.name ∧ c.2 ∈ p.vlans := by
  unfold Topo.cells TopoParent.cells
  rw [List.mem_flatMap]
  constructor
  · rintro ⟨p, hp, hc⟩
    by_cases hne : p.name = []
    · rw [if_pos hne] at hc
      cases hc
    · rw [if_neg hne] at hc
      obtain ⟨v, hv, rfl⟩ := List.mem_map.mp hc
      exact ⟨p, hp, hne, rfl, hv⟩
  · rintro ⟨p, hp, hne, hname, hv⟩
    refine ⟨p, hp, ?_⟩
    rw [if_neg hne]
    exact List.mem_map.mpr ⟨c.2, hv, by rw [← hname]⟩

/-- Under distinct names, a VLAN that is not found is in no cell. -/
theorem key_not_mem (hnames : t.names.Nodup) (h : t.vlanOf name vid = none) :
    (name, vid) ∉ keys cellKey t.cells := by
  intro hmem
  obtain ⟨⟨n, v⟩, hc, hkey⟩ := mem_keys.mp hmem
  obtain ⟨hfree, rfl, rfl⟩ := cellKey_eq_some.mp hkey
  obtain ⟨q, hq, hne, rfl, hv⟩ := mem_cells.mp hc
  dsimp only at hv hfree h
  have his : TopoParent.is q.name q = true := is_iff.mpr ⟨hne, rfl⟩
  cases hp : t.parentOf q.name with
  | none =>
    have hno := List.find?_eq_none.mp hp q hq
    exact hno his
  | some p =>
    obtain ⟨hname, hpne⟩ := parentOf_name hp
    obtain ⟨l₁, l₂, hl, -⟩ := alterFirst_split hp
    have hqp : q = p := by
      unfold Topo.names at hnames
      rw [hl] at hnames hq
      have hkey : q.key = some p.name := by
        rw [TopoParent.key, if_neg hne, hname]
      have hother := key_ne_of_nodup (by rw [TopoParent.key, if_neg hpne]) hnames
      rcases List.mem_append.mp hq with hq | hq
      · exact absurd hkey (hother q (Or.inl hq))
      · rcases List.mem_cons.mp hq with rfl | hq
        · rfl
        · exact absurd hkey (hother q (Or.inr hq))
    subst hqp
    unfold Topo.vlanOf at h
    rw [hp, Option.bind_some] at h
    have hno := List.find?_eq_none.mp h v hv
    exact hno (by simp [TopoVlan.is, hfree])

/-! ## The ring -/

theorem emit_cells (t : Topo) (e : TopoEvent) : (t.emit e).cells = t.cells ∧ (t.emit e).names = t.names := by
  unfold Topo.emit
  split_ifs <;> exact ⟨rfl, rfl⟩

theorem emit_ring (t : Topo) (e : TopoEvent) :
    (t.emit e).ring = if t.ring.length + 1 < topoEvents then t.ring ++ [e] else t.ring := by
  unfold Topo.emit
  split_ifs <;> rfl

theorem emitAll_cells (t : Topo) (es : List TopoEvent) :
    (t.emitAll es).cells = t.cells ∧ (t.emitAll es).names = t.names := by
  induction es generalizing t with
  | nil => exact ⟨rfl, rfl⟩
  | cons e es ih =>
    obtain ⟨hcells, hnames⟩ := ih (t.emit e)
    obtain ⟨hc, hn⟩ := emit_cells t e
    exact ⟨hcells.trans hc, hnames.trans hn⟩

/-- What finds room is queued in order, the rest is dropped. -/
theorem emitAll_ring (t : Topo) (es : List TopoEvent) :
    (t.emitAll es).ring = t.ring ++ es.take (topoEvents - 1 - t.ring.length) := by
  induction es generalizing t with
  | nil => simp [Topo.emitAll]
  | cons e es ih =>
    have hstep : t.emitAll (e :: es) = (t.emit e).emitAll es := rfl
    rw [hstep, ih, emit_ring]
    split_ifs with hroom
    · have htake : topoEvents - 1 - t.ring.length = (topoEvents - 1 - (t.ring ++ [e]).length) + 1 := by
        simp only [List.length_append, List.length_singleton]
        omega
      rw [htake, List.take_succ_cons, List.append_assoc]
      rfl
    · have hzero : topoEvents - 1 - t.ring.length = 0 := by omega
      rw [hzero, List.take_zero, List.take_zero]

/-! ## Moves -/

/-- The RELEASE of a cell. -/
def releaseOf (c : TopoCell) : TopoEvent :=
  { verb := .release, parent := c.1, vid := c.2.vid, minted := c.2.minted }

/-- The ENSURE for a VLAN. -/
def ensureOf (name : IfName) (vid : UInt16) : TopoEvent := { verb := .ensure, parent := name, vid }

/-- The events a call queues: as many as find room. -/
def Topo.queue (t : Topo) (es : List TopoEvent) : List TopoEvent :=
  t.ring ++ es.take (topoEvents - 1 - t.ring.length)

theorem emit_queue (t : Topo) (e : TopoEvent) : (t.emit e).ring = t.queue [e] := emitAll_ring t [e]

/-- The answer to an ENSURE. -/
def TopoInput.answers : TopoInput → Option (IfName × UInt16)
  | .ensured name vid _ | .ensureFailed name vid _ => some (name, vid)
  | _ => none

/-- The RELEASE requests a call makes, whether or not they find room. -/
def Topo.leaving (t : Topo) : TopoInput → List TopoEvent
  | .unwatch name => (t.parentOf name).elim [] fun p => p.releases TopoVlan.isServed
  | .tick now => (t.cells.filter fun c => c.2.silent now).map releaseOf
  | .releaseAll => (t.cells.filter fun c => c.2.isServed).map releaseOf
  | _ => []

/-- The frame makes `reac_topo_saw` ask for a netdev. -/
def Topo.asks (t : Topo) (name : IfName) (kind : TopoKind) (vid : UInt16) (now : UInt64) : Bool :=
  (t.parentOf name).any fun p =>
    (kind = .tagged ∨ kind = .taggedOther) ∧ vid ≠ 0 ∧
      (p.vlans.find? (TopoVlan.is vid)).elim (p.vlans.any (·.state = .free))
        (fun v => decide (v.state = .heard ∧ v.retryAfterNs ≠ 0 ∧ v.retryAfterNs ≤ now)) = true

/-- The outcomes of a call, in terms of cells, names and ring. -/
inductive TopoMove (t : Topo) : TopoInput → Topo → Option TopoEvent → Prop where
  /-- A frame that names no VLAN to track, a full table, an unknown parent, an empty ring. -/
  | still {i : TopoInput} {t' : Topo} (hi : i.answers = none) (hc : t'.cells = t.cells)
      (hn : t'.names = t.names) (hr : t'.ring = t.ring) : TopoMove t i t' none
  /-- A parent takes a free slot. -/
  | watched {name : IfName} {t' : Topo} {A B : List TopoCell} {L R : List IfName} {p : TopoParent}
      (hnew : t.parentOf name = none) (hp : p = { name := ifnamCopy name })
      (hc : t.cells = A ++ B) (hc' : t'.cells = A ++ (p.cells ++ B))
      (hn : t.names = L ++ R) (hn' : t'.names = L ++ (p.key.toList ++ R)) (hr : t'.ring = t.ring) :
      TopoMove t (.watch name) t' none
  /-- A parent goes, and its netdevs with it. -/
  | unwatched {name : IfName} {t' : Topo} {A B C : List TopoCell} {L R : List IfName}
      (hc : t.cells = A ++ (C ++ B)) (hc' : t'.cells = A ++ B)
      (hn : t.names = L ++ name :: R) (hn' : t'.names = L ++ R)
      (hes : t.leaving (.unwatch name) = (C.filter fun c => c.2.isServed).map releaseOf)
      (hr : t'.ring = t.queue (t.leaving (.unwatch name))) : TopoMove t (.unwatch name) t' none
  /-- A tracked VLAN is heard again. -/
  | refreshed {name : IfName} {kind : TopoKind} {vid : UInt16} {now : UInt64} {t' : Topo}
      {A B : List TopoCell} {v : TopoVlan} (hv : v.state ≠ .free ∧ v.vid = vid)
      (hwait : ¬ (v.state = .heard ∧ v.retryAfterNs ≠ 0 ∧ v.retryAfterNs ≤ now))
      (hc : t.cells = A ++ (name, v) :: B) (hc' : t'.cells = A ++ (name, { v with lastNs := now }) :: B)
      (hn : t'.names = t.names) (hr : t'.ring = t.ring) :
      TopoMove t (.saw name kind vid now) t' none
  /-- A failed ensure is tried again. -/
  | retried {name : IfName} {kind : TopoKind} {vid : UInt16} {now : UInt64} {t' : Topo}
      {A B : List TopoCell} {v : TopoVlan} (hv : v.state = .heard ∧ v.vid = vid)
      (hc : t.cells = A ++ (name, v) :: B)
      (hc' : t'.cells = A ++ (name, { v with lastNs := now, retryAfterNs := 0 }) :: B)
      (hn : t'.names = t.names) (hask : t.asks name kind vid now = true)
      (hr : t'.ring = t.queue [ensureOf name vid]) :
      TopoMove t (.saw name kind vid now) t' none
  /-- A VLAN is heard for the first time. -/
  | heard {name : IfName} {kind : TopoKind} {vid : UInt16} {now : UInt64} {t' : Topo}
      {A B : List TopoCell} {v : TopoVlan} (hnew : t.vlanOf name vid = none) (hv : v.state = .free)
      (hc : t.cells = A ++ (name, v) :: B)
      (hc' : t'.cells = A ++ (name, { vid, state := .heard, lastNs := now }) :: B)
      (hn : t'.names = t.names) (hask : t.asks name kind vid now = true)
      (hr : t'.ring = t.queue [ensureOf name vid]) :
      TopoMove t (.saw name kind vid now) t' none
  /-- A request is handed out. -/
  | next {e : TopoEvent} {t' : Topo} (hc : t'.cells = t.cells) (hn : t'.names = t.names)
      (hr : t.ring = e :: t'.ring) : TopoMove t .next t' (some e)
  /-- An answer for a VLAN that is not tracked. -/
  | untracked {i : TopoInput} {name : IfName} {vid : UInt16} (hi : i.answers = some (name, vid))
      (hnew : t.vlanOf name vid = none) : TopoMove t i t none
  /-- The netdev is there. -/
  | ensured {name : IfName} {vid : UInt16} {minted : Bool} {t' : Topo} {A B : List TopoCell}
      {v : TopoVlan} (hfind : t.vlanOf name vid = some v) (hv : v.state ≠ .free ∧ v.vid = vid)
      (hc : t.cells = A ++ (name, v) :: B)
      (hc' : t'.cells = A ++ (name, { v with state := .served, minted, retryAfterNs := 0 }) :: B)
      (hn : t'.names = t.names) (hr : t'.ring = t.ring) : TopoMove t (.ensured name vid minted) t' none
  /-- The netdev could not be made. -/
  | failed {name : IfName} {vid : UInt16} {now : UInt64} {t' : Topo} {A B : List TopoCell}
      {v : TopoVlan} (hfind : t.vlanOf name vid = some v) (hv : v.state ≠ .free ∧ v.vid = vid)
      (hc : t.cells = A ++ (name, v) :: B)
      (hc' : t'.cells = A ++ (name, { v with
        state := .heard, minted := false, retryAfterNs := now + topoRetryNs }) :: B)
      (hn : t'.names = t.names) (hr : t'.ring = t.ring) :
      TopoMove t (.ensureFailed name vid now) t' none
  /-- Served VLANs are let go. -/
  | released {i : TopoInput} {t' : Topo} {pick : TopoVlan → Bool} (hi : i.answers = none)
      (hpick : ∀ v, pick v = true → v.state = .served)
      (hc' : t'.cells = t.cells.map fun c => if pick c.2 then (c.1, {}) else c)
      (hn : t'.names = t.names)
      (hes : t.leaving i = (t.cells.filter fun c => pick c.2).map releaseOf)
      (hr : t'.ring = t.queue (t.leaving i)) : TopoMove t i t' none

theorem releases_eq {p : TopoParent} (hne : p.name ≠ []) (pick : TopoVlan → Bool) :
    p.releases pick = (p.cells.filter fun c => pick c.2).map releaseOf := by
  unfold TopoParent.releases TopoParent.cells
  rw [if_neg hne, List.filter_map, List.map_map]
  rfl

theorem topoWatch_move (t : Topo) (name : IfName) : TopoMove t (.watch name) (topoWatch t name) none := by
  unfold topoWatch
  split_ifs with hsome hroom
  · exact .still rfl rfl rfl rfl
  · obtain ⟨p, hp⟩ : ∃ p, t.parents.find? (fun p => decide (p.name = [])) = some p := by
      rw [← Option.isSome_iff_exists, List.find?_isSome]
      simpa using hroom
    have hfree : p.name = [] := by simpa using List.find?_some hp
    obtain ⟨A, B, hc, hc'⟩ := flatMap_alterFirst TopoParent.cells hp
    obtain ⟨l₁, l₂, hl, halter⟩ := alterFirst_split hp
    refine .watched (A := A) (B := B) (L := keys TopoParent.key l₁) (R := keys TopoParent.key l₂)
      (by simpa using hsome) rfl ?_ ?_ ?_ ?_ rfl
    · rw [Topo.cells, hc, TopoParent.cells, if_pos hfree, List.nil_append]
    · exact hc' _
    · unfold Topo.names
      rw [hl, keys_middle_none (by rw [TopoParent.key, if_pos hfree])]
    · unfold Topo.names
      dsimp only
      rw [halter]
      cases hkey : TopoParent.key { name := ifnamCopy name } with
      | none => exact keys_middle_none hkey
      | some k => exact keys_middle_some hkey
  · exact .still rfl rfl rfl rfl

theorem topoUnwatch_move (t : Topo) (name : IfName) :
    TopoMove t (.unwatch name) (topoUnwatch t name) none := by
  unfold topoUnwatch
  cases hp : t.parentOf name with
  | none => exact .still rfl rfl rfl rfl
  | some p =>
    obtain ⟨hname, hne⟩ := parentOf_name hp
    obtain ⟨A, B, hc, hc'⟩ := setParent_cells hp
    obtain ⟨L, R, hn, hn'⟩ := parentOf_split hp
    obtain ⟨hcells, hnames⟩ := emitAll_cells (t.setParent name fun _ => {}) (p.releases TopoVlan.isServed)
    have hes : t.leaving (.unwatch name) = p.releases TopoVlan.isServed := by
      show (t.parentOf name).elim [] (fun p => p.releases TopoVlan.isServed) = _
      rw [hp, Option.elim_some]
    refine .unwatched hc (hcells.trans (hc' _)) hn (hnames.trans hn') (hes.trans (releases_eq hne _)) ?_
    rw [emitAll_ring, hes]
    rfl

theorem Topo.cells_setParent_same {f : TopoParent → TopoParent} (hf : ∀ p, (f p).cells = p.cells) :
    (t.setParent name f).cells = t.cells := by
  cases h : t.parentOf name with
  | none =>
    unfold Topo.setParent Topo.cells
    rw [alterFirst_of_none h]
  | some p =>
    obtain ⟨A, B, hc, hc'⟩ := setParent_cells h
    rw [hc', hf, ← hc]

theorem parentOf_setParent {f : TopoParent → TopoParent} (hf : ∀ p, (f p).name = p.name) {p : TopoParent}
    (h : t.parentOf name = some p) : (t.setParent name f).parentOf name = some (f p) := by
  have hlist : ∀ l : List TopoParent, l.find? (TopoParent.is name) = some p →
      (alterFirst (TopoParent.is name) f l).find? (TopoParent.is name) = some (f p) := by
    intro l
    induction l with
    | nil => exact nofun
    | cons q l ih =>
      intro hl
      by_cases hq : TopoParent.is name q = true
      · rw [List.find?_cons_of_pos hq] at hl
        obtain rfl := Option.some.inj hl
        have hfq : TopoParent.is name (f q) = true := by
          rw [is_iff, hf]
          exact is_iff.mp hq
        rw [alterFirst, if_pos hq, List.find?_cons_of_pos hfq]
      · rw [List.find?_cons_of_neg hq] at hl
        rw [alterFirst, if_neg hq, List.find?_cons_of_neg hq, ih hl]
  exact hlist _ h

/-- The scan of the VLANs, behind the counter of tagged frames. -/
theorem topoSawVlan_move {t₁ : Topo} {p p₁ : TopoParent} {now : UInt64} {kind : TopoKind}
    (hp : t.parentOf name = some p) (hp₁ : t₁.parentOf name = some p₁) (hv : p₁.vlans = p.vlans)
    (hc₁ : t₁.cells = t.cells) (hn₁ : t₁.names = t.names) (hr₁ : t₁.ring = t.ring)
    (hkind : (kind = .tagged ∨ kind = .taggedOther) ∧ vid ≠ 0) :
    TopoMove t (.saw name kind vid now) (topoSawVlan t₁ p vid now) none := by
  obtain ⟨hname, -⟩ := parentOf_name hp
  have hqueue : ∀ es, t₁.queue es = t.queue es := by
    intro es
    unfold Topo.queue
    rw [hr₁]
  have hkeep : ∀ f : List TopoVlan → List TopoVlan,
      (t₁.setParent name fun p => { p with vlans := f p.vlans }).names = t.names := by
    intro f
    rw [← hn₁]
    exact setParent_names fun _ => rfl
  unfold topoSawVlan
  rw [hname]
  cases hfind : p.vlans.find? (TopoVlan.is vid) with
  | some v =>
    have hvlan : v.state ≠ .free ∧ v.vid = vid := by simpa [TopoVlan.is] using List.find?_some hfind
    obtain ⟨A, B, hc, hc'⟩ := setParent_slot hp₁ (hv ▸ hfind)
    rw [hc₁] at hc
    dsimp only
    split_ifs with hdue
    · obtain ⟨hcells, hnames⟩ := emit_cells
        (t₁.setVlan name vid fun v => { v with lastNs := now, retryAfterNs := 0 }) (ensureOf name vid)
      refine .retried ⟨hdue.1, hvlan.2⟩ hc (hcells.trans (hc' _)) (hnames.trans (hkeep _)) ?_ ?_
      · simp [Topo.asks, hp, hkind, hfind, hdue]
      · rw [← hqueue]
        exact emit_queue _ _
    · exact .refreshed hvlan hdue hc (hc' _) (hkeep _) hr₁
  | none =>
    have hnew : t.vlanOf name vid = none := by
      unfold Topo.vlanOf
      rw [hp, Option.bind_some, hfind]
    dsimp only
    split_ifs with hroom
    · obtain ⟨v, hfree⟩ : ∃ v, p.vlans.find? (fun v => decide (v.state = .free)) = some v := by
        rw [← Option.isSome_iff_exists, List.find?_isSome]
        simpa using hroom
      obtain ⟨A, B, hc, hc'⟩ := setParent_slot hp₁ (hv ▸ hfree)
      rw [hc₁] at hc
      obtain ⟨hcells, hnames⟩ := emit_cells (t₁.setParent name fun p => { p with
        vlans := alterFirst (fun v => decide (v.state = .free))
          (fun _ => { vid, state := .heard, lastNs := now }) p.vlans }) (ensureOf name vid)
      refine .heard hnew ?_ hc (hcells.trans (hc' _)) (hnames.trans (hkeep _)) ?_ ?_
      · simpa using List.find?_some hfree
      · simp only [Topo.asks, hp, Option.any_some, hfind, Option.elim_none, hroom]
        exact decide_eq_true ⟨hkind.1, hkind.2, trivial⟩
      · rw [← hqueue]
        exact emit_queue _ _
    · exact .still rfl hc₁ hn₁ hr₁

theorem topoSaw_move (t : Topo) (name : IfName) (kind : TopoKind) (vid : UInt16) (now : UInt64) :
    TopoMove t (.saw name kind vid now) (topoSaw t name kind vid now) none := by
  unfold topoSaw
  cases hp : t.parentOf name with
  | none => exact .still rfl rfl rfl rfl
  | some p =>
    cases kind with
    | notReac => exact .still rfl rfl rfl rfl
    | untagged =>
      exact .still rfl (Topo.cells_setParent_same fun _ => rfl) (setParent_names fun _ => rfl) rfl
    | tagged =>
      dsimp only
      split_ifs with hvid
      · exact .still rfl rfl rfl rfl
      · have hp₁ := parentOf_setParent (f := fun p => { p with tagged := p.tagged + 1 })
          (fun _ => rfl) hp
        exact topoSawVlan_move hp hp₁ rfl (Topo.cells_setParent_same fun _ => rfl)
          (setParent_names fun _ => rfl) rfl ⟨.inl rfl, hvid⟩
    | taggedOther =>
      dsimp only
      split_ifs with hvid
      · exact .still rfl rfl rfl rfl
      · exact topoSawVlan_move hp hp rfl rfl rfl rfl ⟨.inr rfl, hvid⟩

theorem releaseWhere_move {i : TopoInput} (hi : i.answers = none) {pick : TopoVlan → Bool}
    (hpick : ∀ v, pick v = true → v.state = .served)
    (hes : t.leaving i = (t.cells.filter fun c => pick c.2).map releaseOf) :
    TopoMove t i (t.releaseWhere pick) none := by
  unfold Topo.releaseWhere
  dsimp only
  have hparent : ∀ p : TopoParent,
      TopoParent.cells (if p.name = [] then p
        else { p with vlans := p.vlans.map fun v => if pick v then {} else v })
        = p.cells.map fun c => if pick c.2 then (c.1, {}) else c := by
    intro p
    unfold TopoParent.cells
    split_ifs with hne
    · rfl
    · simp only [List.map_map]
      apply List.map_congr_left
      intro v _
      dsimp only [Function.comp]
      split_ifs <;> rfl
  have hkey : ∀ p : TopoParent,
      TopoParent.key (if p.name = [] then p
        else { p with vlans := p.vlans.map fun v => if pick v then {} else v }) = p.key := by
    intro p
    split_ifs <;> rfl
  refine .released hi hpick ((emitAll_cells ..).1.trans ?_) ((emitAll_cells ..).2.trans ?_) hes ?_
  · unfold Topo.cells
    rw [List.flatMap_map, List.map_flatMap]
    exact List.flatMap_congr fun p _ => hparent p
  · unfold Topo.names keys
    rw [List.filterMap_map]
    exact List.filterMap_congr fun p _ => hkey p
  · rw [emitAll_ring, hes]
    unfold Topo.queue Topo.cells
    rw [List.filter_flatMap, List.map_flatMap]
    congr 2
    apply List.flatMap_congr
    intro p _
    split_ifs with hne
    · rw [TopoParent.cells, if_pos hne]
      rfl
    · exact releases_eq hne pick

theorem topoEnsured_move (t : Topo) (name : IfName) (vid : UInt16) (minted : Bool) :
    TopoMove t (.ensured name vid minted) (topoEnsured t name vid minted) none := by
  unfold topoEnsured
  cases hv : t.vlanOf name vid with
  | none => exact .untracked rfl hv
  | some v =>
    obtain ⟨hfree, hvid, A, B, hc, hc'⟩ := vlanOf_cell hv
    exact .ensured hv ⟨hfree, hvid⟩ hc (hc' _) (setParent_names fun _ => rfl) rfl

theorem topoEnsureFailed_move (t : Topo) (name : IfName) (vid : UInt16) (now : UInt64) :
    TopoMove t (.ensureFailed name vid now) (topoEnsureFailed t name vid now) none := by
  unfold topoEnsureFailed
  cases hv : t.vlanOf name vid with
  | none => exact .untracked rfl hv
  | some v =>
    obtain ⟨hfree, hvid, A, B, hc, hc'⟩ := vlanOf_cell hv
    exact .failed hv ⟨hfree, hvid⟩ hc (hc' _) (setParent_names fun _ => rfl) rfl

theorem topoNext_move (t : Topo) : TopoMove t .next (topoNext t).1 (topoNext t).2 := by
  unfold topoNext
  cases hr : t.ring with
  | nil => exact .still rfl rfl rfl rfl
  | cons e ring => exact .next rfl rfl hr

/-- Every call is one of the moves. -/
theorem topoStep_move (t : Topo) (i : TopoInput) : TopoMove t i (topoStep t i).1 (topoStep t i).2 := by
  cases i with
  | watch name => exact topoWatch_move t name
  | unwatch name => exact topoUnwatch_move t name
  | saw name kind vid now => exact topoSaw_move t name kind vid now
  | next => exact topoNext_move t
  | ensured name vid minted => exact topoEnsured_move t name vid minted
  | ensureFailed name vid now => exact topoEnsureFailed_move t name vid now
  | tick now =>
    refine releaseWhere_move rfl ?_ rfl
    intro v hv
    exact (of_decide_eq_true hv).1
  | releaseAll =>
    refine releaseWhere_move rfl ?_ rfl
    intro v hv
    exact of_decide_eq_true hv

/-! ## Netdevs -/

/-- The cell serves a netdev we made. -/
def heldBy (name : IfName) (vid : UInt16) (c : TopoCell) : Bool :=
  c.1 = name ∧ c.2.vid = vid ∧ c.2.state = .served ∧ c.2.minted = true

/-- The netdevs of `<name>.<vid>` we made and serve. -/
def Topo.held (t : Topo) (name : IfName) (vid : UInt16) : ℕ := t.cells.countP (heldBy name vid)

/-- The request to remove a netdev we made. -/
def isRemoval (name : IfName) (vid : UInt16) (e : TopoEvent) : Bool :=
  e.verb = .release ∧ e.parent = name ∧ e.vid = vid ∧ e.minted = true

/-- How often the caller has reported that it made `<name>.<vid>`. -/
def created (log : List TopoLogEntry) (name : IfName) (vid : UInt16) : ℕ :=
  log.countP fun e => e.input = .ensured name vid true

/-- The removals of `<name>.<vid>` handed out. -/
def delivered (log : List TopoLogEntry) (name : IfName) (vid : UInt16) : ℕ :=
  log.countP fun e => e.out.any (isRemoval name vid)

/-- The removals of `<name>.<vid>` queued so far: handed out already, or still in the ring. -/
def removals (log : List TopoLogEntry) (t : Topo) (name : IfName) (vid : UInt16) : ℕ :=
  delivered log name vid + t.ring.countP (isRemoval name vid)

/-- The requests that find no room. -/
def Topo.dropped (t : Topo) (i : TopoInput) : List TopoEvent :=
  (t.leaving i).drop (topoEvents - 1 - t.ring.length)

/-- The call does not lose a netdev: a creation is reported for a VLAN that is tracked and serves
none yet, no other answer reaches a VLAN that serves one, and every removal finds room. -/
def Topo.keepsNetdevs (t : Topo) : TopoInput → Bool
  | .ensured name vid true => (t.vlanOf name vid).any fun v => !(v.state = .served ∧ v.minted = true)
  | .ensured name vid false | .ensureFailed name vid _ =>
    (t.vlanOf name vid).all fun v => !(v.state = .served ∧ v.minted = true)
  | i => (t.dropped i).all fun e => !e.minted

theorem countP_removals (pick : TopoVlan → Bool) (hpick : ∀ v, pick v = true → v.state = .served)
    (cells : List TopoCell) (name : IfName) (vid : UInt16) :
    ((cells.filter fun c => pick c.2).map releaseOf).countP (isRemoval name vid)
      = cells.countP fun c => heldBy name vid c && pick c.2 := by
  rw [List.countP_map, List.countP_filter]
  apply List.countP_congr
  intro c _
  have hserved := hpick c.2
  simp only [Function.comp, isRemoval, releaseOf, heldBy, Bool.and_eq_true, decide_eq_true_eq]
  tauto

theorem countP_queue (t : Topo) (es : List TopoEvent) (name : IfName) (vid : UInt16)
    (h : ∀ e ∈ es.drop (topoEvents - 1 - t.ring.length), e.minted = false) :
    (t.queue es).countP (isRemoval name vid)
      = t.ring.countP (isRemoval name vid) + es.countP (isRemoval name vid) := by
  have hdrop : (es.drop (topoEvents - 1 - t.ring.length)).countP (isRemoval name vid) = 0 := by
    rw [List.countP_eq_zero]
    intro e he
    simp [isRemoval, h e he]
  have hsplit : (es.take (topoEvents - 1 - t.ring.length)).countP (isRemoval name vid) =
      es.countP (isRemoval name vid) := by
    conv_rhs => rw [← List.take_append_drop (topoEvents - 1 - t.ring.length) es, List.countP_append, hdrop]
    rfl
  rw [Topo.queue, List.countP_append, hsplit]

theorem ensure_not_minted {name : IfName} {vid : UInt16} {n : ℕ} :
    ∀ e ∈ [ensureOf name vid].drop n, e.minted = false := by
  intro e he
  rw [List.mem_singleton.mp (List.mem_of_mem_drop he)]
  rfl

theorem countP_isRemoval_ensure (name name' : IfName) (vid vid' : UInt16) :
    [ensureOf name' vid'].countP (isRemoval name vid) = 0 := by
  simp [ensureOf, isRemoval]

theorem held_middle {A B : List TopoCell} {c : TopoCell} (h : t.cells = A ++ c :: B) (name : IfName)
    (vid : UInt16) :
    t.held name vid = A.countP (heldBy name vid) + B.countP (heldBy name vid) +
      if heldBy name vid c then 1 else 0 := by
  rw [Topo.held, h, List.countP_append, List.countP_cons, Nat.add_assoc]

theorem heldBy_of_not {c : TopoCell} (h : ¬ (c.2.state = .served ∧ c.2.minted = true)) (name : IfName)
    (vid : UInt16) : heldBy name vid c = false := by
  apply decide_eq_false
  tauto

theorem keepsNetdevs_dropped {i : TopoInput} (hi : i.answers = none) (hok : t.keepsNetdevs i = true) :
    ∀ e ∈ (t.leaving i).drop (topoEvents - 1 - t.ring.length), e.minted = false := by
  intro e he
  have hall : ∀ e ∈ t.dropped i, (!e.minted) = true := by
    cases i with
    | ensured | ensureFailed => cases hi
    | watch | unwatch | saw | next | tick | releaseAll => exact List.all_eq_true.mp hok
  simpa using hall e he

/-- The VLAN an answer reaches serves no netdev of ours yet. -/
theorem keepsNetdevs_answered {i : TopoInput} {name : IfName} {vid : UInt16} {v : TopoVlan}
    (hi : i.answers = some (name, vid)) (hok : t.keepsNetdevs i = true) (hv : t.vlanOf name vid = some v) :
    ¬ (v.state = .served ∧ v.minted = true) := by
  cases i with
  | ensured n w minted =>
    cases hi
    cases minted with
    | true =>
      simp only [Topo.keepsNetdevs, hv, Option.any_some, Bool.not_eq_true', decide_eq_false_iff_not] at hok
      exact hok
    | false =>
      simp only [Topo.keepsNetdevs, hv, Option.all_some, Bool.not_eq_true', decide_eq_false_iff_not] at hok
      exact hok
  | ensureFailed n w now =>
    cases hi
    simp only [Topo.keepsNetdevs, hv, Option.all_some, Bool.not_eq_true', decide_eq_false_iff_not] at hok
    exact hok
  | watch | unwatch | saw | next | tick | releaseAll => cases hi

theorem not_ensured {i : TopoInput} (hi : i.answers = none) (name : IfName) (vid : UInt16) :
    ¬ i = .ensured name vid true := by
  rintro rfl
  cases hi

/-- What one call does to the netdevs of `<name>.<vid>`: a reported creation is held, and what is no
longer held is queued for removal. -/
theorem TopoMove.account {i : TopoInput} {out : Option TopoEvent} (h : TopoMove t i t' out)
    (hok : t.keepsNetdevs i = true) (name : IfName) (vid : UInt16) :
    t'.held name vid + t'.ring.countP (isRemoval name vid) +
        (if out.any (isRemoval name vid) then 1 else 0)
      = t.held name vid + t.ring.countP (isRemoval name vid) +
        (if i = .ensured name vid true then 1 else 0) := by
  cases h with
  | still hi hc hn hr =>
    rw [Topo.held, Topo.held, hc, hr, if_neg (not_ensured hi name vid)]
    rfl
  | @watched _ _ A B _ _ p hnew hp hc hc' hn hn' hr =>
    have hfree : p.cells.countP (heldBy name vid) = 0 := by
      rw [List.countP_eq_zero]
      intro c hcell
      rw [hp, TopoParent.cells] at hcell
      split_ifs at hcell
      · cases hcell
      · obtain ⟨v, hv, rfl⟩ := List.mem_map.mp hcell
        rw [List.eq_of_mem_replicate hv]
        simp [heldBy]
    rw [Topo.held, Topo.held, hc, hc', hr, List.countP_append, List.countP_append, List.countP_append,
      hfree, Nat.zero_add, if_neg (not_ensured rfl name vid)]
    rfl
  | @unwatched n _ A B C _ _ hc hc' hn hn' hes hr =>
    have hcount := countP_removals TopoVlan.isServed (fun v hv => of_decide_eq_true hv) C name vid
    have hsame : (C.countP fun c => heldBy name vid c && c.2.isServed) = C.countP (heldBy name vid) := by
      apply List.countP_congr
      intro c _
      simp only [heldBy, TopoVlan.isServed, Bool.and_eq_true, decide_eq_true_eq]
      tauto
    rw [hr, countP_queue t _ name vid (keepsNetdevs_dropped rfl hok), hes, hcount, hsame, Topo.held,
      Topo.held, hc, hc', List.countP_append, List.countP_append, List.countP_append,
      if_neg (not_ensured rfl name vid)]
    simp only [Option.any_none, Bool.false_eq_true, if_false]
    omega
  | refreshed hv hwait hc hc' hn hr =>
    rw [held_middle hc, held_middle hc', hr, if_neg (not_ensured rfl name vid)]
    rfl
  | retried hv hc hc' hn hask hr =>
    rw [held_middle hc, held_middle hc', hr, countP_queue t _ name vid ensure_not_minted,
      countP_isRemoval_ensure, if_neg (not_ensured rfl name vid)]
    rfl
  | @heard n _ _ _ _ _ _ v hnew hv hc hc' hn hask hr =>
    have hbefore := heldBy_of_not (c := (n, v)) (by simp [hv]) name vid
    rw [held_middle hc, held_middle hc', hr, countP_queue t _ name vid ensure_not_minted,
      countP_isRemoval_ensure, if_neg (not_ensured rfl name vid), hbefore]
    simp [heldBy]
  | next hc hn hr =>
    rw [Topo.held, Topo.held, hc, hr, List.countP_cons, if_neg (not_ensured rfl name vid)]
    simp only [Option.any_some]
    omega
  | @untracked _ n w hi hnew =>
    have hno : ¬ i = .ensured name vid true := by
      rintro rfl
      cases hi
      simp [Topo.keepsNetdevs, hnew] at hok
    rw [if_neg hno]
    rfl
  | @ensured n w minted _ A B v hfind hv hc hc' hn hr =>
    have hbefore := heldBy_of_not (c := (n, v)) (keepsNetdevs_answered rfl hok hfind) name vid
    have hafter : heldBy name vid (n, { v with state := .served, minted, retryAfterNs := 0 }) = true ↔
        TopoInput.ensured n w minted = .ensured name vid true := by
      rw [← hv.2]
      simp [heldBy]
    rw [held_middle hc, held_middle hc', hr, hbefore]
    simp only [hafter, Option.any_none, Bool.false_eq_true, if_false]
    omega
  | @failed n w now _ A B v hfind hv hc hc' hn hr =>
    have hbefore := heldBy_of_not (c := (n, v)) (keepsNetdevs_answered rfl hok hfind) name vid
    rw [held_middle hc, held_middle hc', hr, hbefore]
    simp [heldBy]
  | @released _ _ pick hi hpick hc' hn hes hr =>
    have hcount := countP_removals pick hpick t.cells name vid
    have hsplit : t'.held name vid + (t.cells.countP fun c => heldBy name vid c && pick c.2) = t.held name vid := by
      have hleft : t'.held name vid = t.cells.countP fun c => heldBy name vid c && !pick c.2 := by
        rw [Topo.held, hc', List.countP_map]
        apply List.countP_congr
        intro c _
        simp only [Function.comp]
        split_ifs with hp
        · simp [heldBy, hp]
        · simp [hp]
      rw [hleft, Topo.held, Nat.add_comm, ← List.countP_filter, ← List.countP_filter,
        ← List.countP_eq_countP_filter_add]
    rw [hr, countP_queue t _ name vid (keepsNetdevs_dropped hi hok), hes, hcount,
      if_neg (not_ensured hi name vid)]
    simp only [Option.any_none, Bool.false_eq_true, if_false]
    omega

/-- A call queues no more removals of `<name>.<vid>` than it serves netdevs of that name which we
made. -/
theorem TopoMove.own {i : TopoInput} {out : Option TopoEvent} (h : TopoMove t i t' out)
    (name : IfName) (vid : UInt16) :
    t'.ring.countP (isRemoval name vid) + (if out.any (isRemoval name vid) then 1 else 0)
      ≤ t.ring.countP (isRemoval name vid) + t.held name vid := by
  have hqueue : ∀ es, (t.queue es).countP (isRemoval name vid)
      ≤ t.ring.countP (isRemoval name vid) + es.countP (isRemoval name vid) := by
    intro es
    rw [Topo.queue, List.countP_append]
    exact Nat.add_le_add_left ((List.take_sublist _ _).countP_le) _
  cases h with
  | still _ _ _ hr | watched _ _ _ _ _ _ hr | refreshed _ _ _ _ _ hr | ensured _ _ _ _ _ hr
  | failed _ _ _ _ _ hr =>
    rw [hr]
    exact Nat.le_add_right _ _
  | untracked => exact Nat.le_add_right _ _
  | retried _ _ _ _ _ hr | heard _ _ _ _ _ _ hr =>
    rw [hr]
    refine le_trans (hqueue _) ?_
    rw [countP_isRemoval_ensure]
    exact Nat.le_add_right _ _
  | next _ _ hr =>
    rw [hr, List.countP_cons]
    simp only [Option.any_some]
    omega
  | @unwatched _ _ A B C _ _ hc _ _ _ hes hr =>
    have hcount := countP_removals TopoVlan.isServed (fun v hv => of_decide_eq_true hv) C name vid
    have hle : (C.countP fun c => heldBy name vid c && c.2.isServed) ≤ t.held name vid := by
      rw [Topo.held, hc, List.countP_append, List.countP_append]
      have hmono : (C.countP fun c => heldBy name vid c && c.2.isServed) ≤ C.countP (heldBy name vid) :=
        List.countP_mono_left fun c _ hb => (Bool.and_eq_true_iff.mp hb).1
      omega
    rw [hr]
    refine le_trans (hqueue _) ?_
    rw [hes, hcount]
    exact Nat.add_le_add_left hle _
  | @released _ _ pick _ hpick _ _ hes hr =>
    have hle : (t.cells.countP fun c => heldBy name vid c && pick c.2) ≤ t.held name vid :=
      List.countP_mono_left fun c _ hb => (Bool.and_eq_true_iff.mp hb).1
    rw [hr]
    refine le_trans (hqueue _) ?_
    rw [hes, countP_removals pick hpick t.cells name vid]
    exact Nat.add_le_add_left hle _

/-- The account of a step: every netdev the caller made is served as ours, or its removal has been
queued once; and what is removed was served as ours. -/
structure NetdevsKept (log : List TopoLogEntry) (e : TopoLogEntry) : Prop where
  account : ∀ name vid,
    created (log ++ [e]) name vid = e.post.held name vid + removals (log ++ [e]) e.post name vid
  own : ∀ name vid,
    removals (log ++ [e]) e.post name vid ≤ removals log e.pre name vid + e.pre.held name vid

theorem removals_concat (log : List TopoLogEntry) (e : TopoLogEntry) (name : IfName) (vid : UInt16) :
    removals (log ++ [e]) e.post name vid = delivered log name vid +
      (e.post.ring.countP (isRemoval name vid) + if e.out.any (isRemoval name vid) then 1 else 0) := by
  rw [removals, delivered, List.countP_append, List.countP_singleton, delivered]
  omega

theorem netdevsKept_step {log : List TopoLogEntry} (i : TopoInput)
    (h : ∀ name vid, created log name vid = t.held name vid + removals log t name vid)
    (hok : t.keepsNetdevs i = true) : NetdevsKept log (topoMachine.event t i) := by
  have hmove : TopoMove t i (topoMachine.event t i).post (topoMachine.event t i).out := topoStep_move t i
  refine ⟨?_, ?_⟩
  · intro name vid
    have hcreated : created (log ++ [topoMachine.event t i]) name vid =
        created log name vid + if i = .ensured name vid true then 1 else 0 := by
      rw [created, List.countP_append, List.countP_singleton, created, Machine.event_input]
      by_cases hi : i = .ensured name vid true
      · rw [if_pos hi, if_pos (decide_eq_true hi)]
      · rw [if_neg hi, if_neg (by rw [decide_eq_true_iff]; exact hi)]
    have haccount := hmove.account hok name vid
    rw [hcreated, removals_concat, h name vid, removals]
    omega
  · intro name vid
    have hown := hmove.own name vid
    rw [removals_concat, removals, Nat.add_assoc]
    exact Nat.add_le_add_left hown _

/-- In every run whose calls lose no netdev, the netdevs we made are served or queued for removal, one
removal for each. -/
theorem minted_netdevs_kept (is : List TopoInput)
    (hok : ∀ e ∈ topoMachine.trace topoInit is, e.pre.keepsNetdevs e.input = true) :
    ∀ log e, topoMachine.StepOf topoInit is log e → NetdevsKept log e := by
  intro log e he
  obtain ⟨hinv, heq⟩ := topoMachine.trace_invariant_at
    (H := fun log t => ∀ name vid, created log name vid = t.held name vid + removals log t name vid)
    (L := fun _ e => e.pre.keepsNetdevs e.input = true) (fun _ _ => rfl)
    (fun log t i h hL => (netdevsKept_step i h hL).account) (fun log e he => hok e (he.mem_trace _)) he
  have hstep := hok e (he.mem_trace _)
  rw [heq]
  exact netdevsKept_step e.input hinv hstep

/-- The ENSURE requests the caller has taken and not answered. -/
def owed (log : List TopoLogEntry) : List (IfName × UInt16) :=
  log.foldl
    (fun owed e =>
      match e.input.answers with
      | some k => owed.erase k
      | none => owed ++ (e.out.filter fun ev => ev.verb = .ensure).toList.map fun ev => (ev.parent, ev.vid))
    []

/-- The caller answers what it has taken, and each request once. -/
def AnswersTaken (is : List TopoInput) : Prop :=
  ∀ log e, topoMachine.StepOf topoInit is log e → e.input.answers.all (fun k => k ∈ owed log) = true

/-- The name `eth0`. -/
def eth0 : IfName := [0x65, 0x74, 0x68, 0x30]

/-- A VLAN is heard, its netdev made, and given up when the VLAN falls silent. -/
def silentRun : List TopoInput :=
  [.watch eth0, .saw eth0 .tagged 11 1, .next, .ensured eth0 11 true, .tick 40000000000]

/-- The removal is handed out, and the account closes. -/
theorem minted_netdev_removed :
    NetdevsKept (topoMachine.trace topoInit silentRun)
      (topoMachine.event (topoMachine.run topoInit silentRun) .next) :=
  minted_netdevs_kept (silentRun ++ [.next]) (by decide +kernel) _ _ (topoMachine.stepOf_last ..)

/-- The parent goes away between a request and its answer: the netdev made for it is forgotten. -/
def unwatchedRun : List TopoInput :=
  [.watch eth0, .saw eth0 .tagged 11 1, .next, .unwatch eth0, .ensured eth0 11 true]

theorem minted_netdev_leaks :
    AnswersTaken unwatchedRun ∧
      ¬ ∀ log e, topoMachine.StepOf topoInit unwatchedRun log e → NetdevsKept log e := by
  constructor
  · exact topoMachine.forall_stepOf (by decide +kernel)
  · intro hkept
    have hlast := (hkept _ _ (topoMachine.stepOf_last topoInit (unwatchedRun.take 4)
      (.ensured eth0 11 true))).account eth0 11
    revert hlast
    decide +kernel

end Libreac
