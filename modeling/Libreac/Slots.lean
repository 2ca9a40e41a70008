import Mathlib.Data.List.Basic
import Mathlib.Data.List.Nodup

/-!
# Tables of slots

An array scanned from the front: the first slot that answers a question is changed in place. The
split lemma says where; a table seen as a list of cells changes in the same place.
-/

namespace Slots

variable {α β κ : Type}

/-- Change the first slot that `p` accepts. -/
def alterFirst (p : α → Bool) (f : α → α) : List α → List α
  | [] => []
  | a :: l => if p a then f a :: l else a :: alterFirst p f l

variable {p : α → Bool} {f : α → α} {l : List α}

/-- The slot that is found is the slot that is changed. -/
theorem alterFirst_split {a : α} (h : l.find? p = some a) :
    ∃ l₁ l₂, l = l₁ ++ a :: l₂ ∧ ∀ f, alterFirst p f l = l₁ ++ f a :: l₂ := by
  induction l with
  | nil => cases h
  | cons b l ih =>
    by_cases hb : p b = true
    · rw [List.find?_cons_of_pos hb] at h
      obtain rfl := Option.some.inj h
      refine ⟨[], l, rfl, ?_⟩
      intro f
      rw [alterFirst, if_pos hb]
      rfl
    · rw [List.find?_cons_of_neg hb] at h
      obtain ⟨l₁, l₂, rfl, hf⟩ := ih h
      refine ⟨b :: l₁, l₂, rfl, ?_⟩
      intro f
      rw [alterFirst, if_neg hb, hf]
      rfl

theorem alterFirst_of_none (h : l.find? p = none) : alterFirst p f l = l := by
  induction l with
  | nil => rfl
  | cons a l ih =>
    have hno := List.find?_eq_none.mp h
    have hrest : l.find? p = none := List.find?_eq_none.mpr fun b hb => hno b (List.mem_cons_of_mem a hb)
    rw [alterFirst, if_neg (hno a List.mem_cons_self), ih hrest]

/-- The cells of a table in which one slot is changed. -/
theorem flatMap_alterFirst (cells : α → List β) {a : α} (h : l.find? p = some a) :
    ∃ A B, l.flatMap cells = A ++ (cells a ++ B) ∧
      ∀ f, (alterFirst p f l).flatMap cells = A ++ (cells (f a) ++ B) := by
  obtain ⟨l₁, l₂, rfl, hf⟩ := alterFirst_split h
  refine ⟨l₁.flatMap cells, l₂.flatMap cells, ?_, ?_⟩
  · rw [List.flatMap_append, List.flatMap_cons]
  · intro f
    rw [hf, List.flatMap_append, List.flatMap_cons]

/-! ## Keys -/

/-- The keys of the cells in use. -/
def keys (key : β → Option κ) (cells : List β) : List κ := cells.filterMap key

variable {key : β → Option κ} {A B : List β} {b c : β}

theorem mem_keys {k : κ} {cells : List β} : k ∈ keys key cells ↔ ∃ c ∈ cells, key c = some k :=
  List.mem_filterMap

theorem keys_append (A B : List β) : keys key (A ++ B) = keys key A ++ keys key B :=
  List.filterMap_append

theorem keys_middle_some {k : κ} (hb : key b = some k) :
    keys key (A ++ b :: B) = keys key A ++ k :: keys key B := by
  rw [keys_append, keys, keys, keys, List.filterMap_cons, hb]

theorem keys_middle_none (hb : key b = none) : keys key (A ++ b :: B) = keys key A ++ keys key B := by
  rw [keys_append, keys, keys, keys, List.filterMap_cons, hb]

/-- A cell changed under its key leaves the keys as they are. -/
theorem keys_congr (h : key c = key b) : keys key (A ++ c :: B) = keys key (A ++ b :: B) := by
  rw [keys_append, keys_append, keys, keys, keys, List.filterMap_cons, List.filterMap_cons, h]

theorem nodup_keys_congr (h : key c = key b) (hb : (keys key (A ++ b :: B)).Nodup) :
    (keys key (A ++ c :: B)).Nodup := by
  rw [keys_congr h]
  exact hb

/-- A cell with a key of its own shares it with no other. -/
theorem key_ne_of_nodup {k : κ} (hb : key b = some k) (h : (keys key (A ++ b :: B)).Nodup) :
    ∀ c, c ∈ A ∨ c ∈ B → key c ≠ some k := by
  rw [keys_middle_some hb, List.nodup_middle, List.nodup_cons, List.mem_append] at h
  rintro c hc hk
  rcases hc with hc | hc
  · exact h.1 (Or.inl (mem_keys.mpr ⟨c, hc, hk⟩))
  · exact h.1 (Or.inr (mem_keys.mpr ⟨c, hc, hk⟩))

/-- A free cell taken by a new key. -/
theorem nodup_keys_insert {k : κ} (hfree : key b = none) (hc : key c = some k)
    (h : (keys key (A ++ b :: B)).Nodup) (hnew : k ∉ keys key (A ++ b :: B)) :
    (keys key (A ++ c :: B)).Nodup := by
  rw [keys_middle_none hfree] at h hnew
  rw [keys_middle_some hc, List.nodup_middle, List.nodup_cons]
  exact ⟨hnew, h⟩

/-- Cells that keep their key or are freed. -/
theorem keys_map_sublist {f : β → β} (hf : ∀ c, key (f c) = none ∨ key (f c) = key c)
    (cells : List β) : (keys key (cells.map f)).Sublist (keys key cells) := by
  induction cells with
  | nil => exact List.Sublist.refl _
  | cons c cells ih =>
    unfold keys at ih ⊢
    rw [List.map_cons]
    rcases hf c with hfree | hsame
    · rw [List.filterMap_cons_none hfree]
      exact ih.trans ((List.sublist_cons_self c cells).filterMap key)
    · rw [List.filterMap_cons, List.filterMap_cons, hsame]
      cases key c with
      | none => exact ih
      | some k => exact ih.cons_cons k

end Slots

/-! ## Tables with distinct keys -/

/-- `cap` slots that are free or hold an entry under its key; no two entries share a key. -/
structure SlotTable (κ α : Type) (cap : ℕ) where
  slots : List (Option (κ × α))
  size : slots.length = cap
  distinct : (Slots.keys (Option.map Prod.fst) slots).Nodup

namespace SlotTable

open Slots

variable {κ α : Type} {cap : ℕ}

/-- The entries in slot order. -/
def entries (t : SlotTable κ α cap) : List (κ × α) := t.slots.filterMap id

/-- No slot is free. -/
def full (t : SlotTable κ α cap) : Bool := t.slots.all Option.isSome

/-- Every slot is free. -/
def empty : SlotTable κ α cap where
  slots := List.replicate cap none
  size := List.length_replicate
  distinct := by simp [Slots.keys]

/-- Change every entry. -/
def mapAll (t : SlotTable κ α cap) (f : α → α) : SlotTable κ α cap where
  slots := t.slots.map (Option.map (Prod.map id f))
  size := by rw [List.length_map, t.size]
  distinct := by
    refine t.distinct.sublist (keys_map_sublist ?_ t.slots)
    intro c
    cases c with
    | none => exact .inl rfl
    | some p => exact .inr rfl

theorem keys_slots (t : SlotTable κ α cap) : keys (Option.map Prod.fst) t.slots = t.entries.map Prod.fst := by
  unfold keys entries
  rw [List.map_filterMap]
  rfl

theorem nodup_keys (t : SlotTable κ α cap) : (t.entries.map Prod.fst).Nodup := by
  rw [← t.keys_slots]
  exact t.distinct

theorem mem_entries {t : SlotTable κ α cap} {p : κ × α} : p ∈ t.entries ↔ some p ∈ t.slots := by
  simp [entries]

theorem entries_length_le (t : SlotTable κ α cap) : t.entries.length ≤ cap :=
  Nat.le_trans (List.length_filterMap_le id t.slots) (Nat.le_of_eq t.size)

theorem find_free_of_not_full {t : SlotTable κ α cap} (hroom : t.full = false) :
    t.slots.find? Option.isNone = some none := by
  cases hfree : t.slots.find? Option.isNone with
  | some c =>
    obtain rfl : c = none := by simpa using List.find?_some hfree
    rfl
  | none =>
    rw [List.find?_eq_none] at hfree
    have hall : t.full = true := List.all_eq_true.mpr fun c hc => by
      simpa [← Option.isSome_iff_ne_none] using hfree c hc
    rw [hall] at hroom
    cases hroom

variable [DecidableEq κ]

/-- The entry under the key `k`. -/
def find (t : SlotTable κ α cap) (k : κ) : Option α := (t.entries.find? fun p => p.1 = k).map Prod.snd

/-- What `alter` makes of a slot. -/
def alterSlot (k : κ) (f : α → Option α) : Option (κ × α) → Option (κ × α)
  | none => none
  | some p => if p.1 = k then (f p.2).map (Prod.mk k) else some p

/-- Change the entry under the key `k`, or free its slot. -/
def alter (t : SlotTable κ α cap) (k : κ) (f : α → Option α) : SlotTable κ α cap where
  slots := t.slots.map (alterSlot k f)
  size := by rw [List.length_map, t.size]
  distinct := by
    refine t.distinct.sublist (keys_map_sublist ?_ t.slots)
    intro c
    cases c with
    | none => exact .inl rfl
    | some p =>
      unfold alterSlot
      dsimp only
      split_ifs with hk
      · cases f p.2 with
        | none => exact .inl rfl
        | some a => exact .inr (congrArg some hk.symm)
      · exact .inr rfl

/-- The entry under a key is the only one. -/
theorem find_eq_some_iff (t : SlotTable κ α cap) (k : κ) (a : α) :
    t.find k = some a ↔ (k, a) ∈ t.entries := by
  unfold find
  constructor
  · intro h
    obtain ⟨p, hp, rfl⟩ := Option.map_eq_some_iff.mp h
    have hk : p.1 = k := by simpa using List.find?_some hp
    rw [← hk]
    exact List.mem_of_find?_eq_some hp
  · intro h
    cases hp : t.entries.find? fun p => p.1 = k with
    | none => simpa using List.find?_eq_none.mp hp _ h
    | some p =>
      have hk : p.1 = k := by simpa using List.find?_some hp
      rw [List.inj_on_of_nodup_map t.nodup_keys (List.mem_of_find?_eq_some hp) h hk]
      rfl

theorem find_eq_none_iff (t : SlotTable κ α cap) (k : κ) :
    t.find k = none ↔ k ∉ t.entries.map Prod.fst := by
  rw [find, Option.map_eq_none_iff, List.find?_eq_none, List.mem_map]
  constructor
  · rintro h ⟨p, hp, rfl⟩
    simpa using h p hp
  · intro h p hp
    rw [decide_eq_true_iff]
    exact fun hk => h ⟨p, hp, hk⟩

/-- Put an entry under a new key into the first free slot. -/
def insert (t : SlotTable κ α cap) (k : κ) (a : α) (hnew : t.find k = none) : SlotTable κ α cap where
  slots := alterFirst Option.isNone (fun _ => some (k, a)) t.slots
  size := by
    cases hfree : t.slots.find? Option.isNone with
    | none => rw [alterFirst_of_none hfree, t.size]
    | some c =>
      obtain ⟨l₁, l₂, hl, hset⟩ := alterFirst_split hfree
      rw [hset, ← t.size, hl]
      simp
  distinct := by
    cases hfree : t.slots.find? Option.isNone with
    | none =>
      rw [alterFirst_of_none hfree]
      exact t.distinct
    | some c =>
      obtain rfl : c = none := by simpa using List.find?_some hfree
      obtain ⟨l₁, l₂, hl, hset⟩ := alterFirst_split hfree
      rw [hset]
      have hdistinct := t.distinct
      have hkeys := t.keys_slots
      rw [find_eq_none_iff, ← hkeys] at hnew
      rw [hl] at hdistinct hnew
      exact nodup_keys_insert rfl rfl hdistinct hnew

/-! ### Looking up afterwards -/

@[simp] theorem find_empty (k : κ) : (empty : SlotTable κ α cap).find k = none := by
  simp [find, entries, empty]

theorem find_alter (t : SlotTable κ α cap) (k : κ) (f : α → Option α) (k' : κ) :
    (t.alter k f).find k' = if k' = k then (t.find k').bind f else t.find k' := by
  ext b
  rw [find_eq_some_iff, mem_entries]
  show some (k', b) ∈ t.slots.map (alterSlot k f) ↔ _
  rw [List.mem_map]
  constructor
  · rintro ⟨c, hc, hb⟩
    obtain _ | ⟨j, a⟩ := c
    · cases hb
    have ha := (find_eq_some_iff t j a).mpr (mem_entries.mpr hc)
    unfold alterSlot at hb
    dsimp only at hb
    split_ifs at hb with hj
    · obtain ⟨b', hb', heq⟩ := Option.map_eq_some_iff.mp hb
      obtain ⟨rfl, rfl⟩ := Prod.mk.inj heq
      rw [if_pos rfl, Option.bind_eq_some_iff]
      exact ⟨a, hj ▸ ha, hb'⟩
    · obtain ⟨rfl, rfl⟩ := Prod.mk.inj (Option.some.inj hb)
      rw [if_neg hj]
      exact ha
  · intro hb
    split_ifs at hb with hk
    · subst hk
      obtain ⟨a, ha, hb⟩ := Option.bind_eq_some_iff.mp hb
      refine ⟨some (k', a), mem_entries.mp ((find_eq_some_iff t k' a).mp ha), ?_⟩
      simp [alterSlot, hb]
    · refine ⟨some (k', b), mem_entries.mp ((find_eq_some_iff t k' b).mp hb), ?_⟩
      simp [alterSlot, hk]

theorem find_mapAll (t : SlotTable κ α cap) (f : α → α) (k : κ) :
    (t.mapAll f).find k = (t.find k).map f := by
  ext b
  rw [find_eq_some_iff, mem_entries]
  show some (k, b) ∈ t.slots.map (Option.map (Prod.map id f)) ↔ _
  rw [List.mem_map, Option.map_eq_some_iff]
  constructor
  · rintro ⟨c, hc, hb⟩
    obtain ⟨⟨j, a⟩, rfl, heq⟩ := Option.map_eq_some_iff.mp hb
    obtain ⟨rfl, rfl⟩ := Prod.mk.inj heq
    exact ⟨a, (find_eq_some_iff t j a).mpr (mem_entries.mpr hc), rfl⟩
  · rintro ⟨a, ha, rfl⟩
    exact ⟨some (k, a), mem_entries.mp ((find_eq_some_iff t k a).mp ha), rfl⟩

theorem find_insert (t : SlotTable κ α cap) {k : κ} {a : α} (hnew : t.find k = none)
    (hroom : t.full = false) (k' : κ) :
    (t.insert k a hnew).find k' = if k' = k then some a else t.find k' := by
  obtain ⟨l₁, l₂, hl, hset⟩ := alterFirst_split (find_free_of_not_full hroom)
  have hmem : ∀ j b, some (j, b) ∈ (t.insert k a hnew).slots ↔ (j, b) = (k, a) ∨ some (j, b) ∈ t.slots := by
    intro j b
    show some (j, b) ∈ alterFirst Option.isNone (fun _ => some (k, a)) t.slots ↔ _
    rw [hset, hl]
    simp only [List.mem_append, List.mem_cons, reduceCtorEq, false_or, Option.some.injEq]
    tauto
  ext b
  rw [find_eq_some_iff, mem_entries, hmem, ← mem_entries, ← find_eq_some_iff]
  by_cases hk : k' = k
  · subst hk
    rw [if_pos rfl, hnew]
    simp [eq_comm]
  · rw [if_neg hk]
    simp [hk]

/-- A table is full if it holds an entry under each of `cap` keys. -/
theorem full_iff (t : SlotTable κ α cap) {ks : List κ} (hks : ks.Nodup)
    (hfind : ∀ k, k ∈ ks ↔ t.find k ≠ none) : t.full = true ↔ cap ≤ ks.length := by
  have hperm : ks.Perm (t.entries.map Prod.fst) := by
    rw [List.perm_ext_iff_of_nodup hks t.nodup_keys]
    intro k
    rw [hfind, Ne, find_eq_none_iff, not_not]
  have hfull : t.full = true ↔ t.slots.length ≤ t.entries.length := by
    unfold full entries
    rw [List.length_filterMap_eq_countP, List.all_eq_true]
    constructor
    · intro h
      exact Nat.le_of_eq (List.countP_eq_length.mpr fun c hc => h c hc).symm
    · intro h
      exact List.countP_eq_length.mp (Nat.le_antisymm List.countP_le_length h)
  rw [hfull, t.size, hperm.length_eq, List.length_map]

end SlotTable
