import Mathlib.Data.List.Nodup
import Mathlib.Data.List.Perm.Basic

/-!
# Bounded rosters

A roster holds at most `cap` entries with distinct keys in an array. An entry is looked up by its key,
changed in place, appended at the end, or removed by moving the last entry into its place. The order
of the entries is not observable through `Roster.find`, so each operation has one lemma that says
what `find` returns afterwards.
-/

/-- At most `cap` entries of type `α` with distinct keys. -/
structure Roster {κ α : Type} (key : α → κ) (cap : ℕ) where
  entries : List α
  distinct : (entries.map key).Nodup
  fits : entries.length ≤ cap

namespace Roster

/-! ## Swap removal -/

section SwapRemove

variable {α : Type}

/-- The array scan that overwrites a refused entry with the last one and looks at that one next.
The first argument bounds the number of steps. -/
def swapRemove (keep : α → Bool) : ℕ → List α → List α
  | 0, l => l
  | _ + 1, [] => []
  | n + 1, a :: l =>
    if keep a then a :: swapRemove keep n l
    else
      match l.getLast? with
      | none => []
      | some b => swapRemove keep n (b :: l.dropLast)

theorem swapRemove_perm (keep : α → Bool) (n : ℕ) (l : List α) (h : l.length ≤ n) :
    (swapRemove keep n l).Perm (l.filter keep) := by
  induction n generalizing l with
  | zero =>
    have hl : l = [] := List.eq_nil_of_length_eq_zero (by omega)
    subst hl
    exact List.Perm.nil
  | succ n ih =>
    cases l with
    | nil => exact List.Perm.nil
    | cons a l =>
      rw [List.length_cons] at h
      by_cases ha : keep a = true
      · rw [swapRemove, if_pos ha, List.filter_cons_of_pos ha]
        exact (ih l (by omega)).cons a
      · rw [swapRemove, if_neg ha, List.filter_cons_of_neg ha]
        rcases List.eq_nil_or_concat l with rfl | ⟨l', b, rfl⟩
        · exact List.Perm.nil
        · simp only [List.concat_eq_append, List.getLast?_concat, List.dropLast_concat] at h ⊢
          rw [List.length_append, List.length_singleton] at h
          refine (ih (b :: l') (by rw [List.length_cons]; omega)).trans ?_
          exact (List.perm_append_singleton b l').symm.filter keep

end SwapRemove

/-! ## Operations -/

variable {κ α : Type} {key : α → κ} {cap : ℕ}

/-- No entries. -/
def empty : Roster key cap := ⟨[], List.nodup_nil, Nat.zero_le cap⟩

/-- No room for another entry. -/
def full (r : Roster key cap) : Bool := cap ≤ r.entries.length

/-- Keep the entries that `keep` accepts. -/
def retain (r : Roster key cap) (keep : α → Bool) : Roster key cap where
  entries := swapRemove keep r.entries.length r.entries
  distinct := by
    have hperm := swapRemove_perm keep r.entries.length r.entries (Nat.le_refl _)
    have hsub := r.entries.filter_sublist (p := keep)
    exact (hperm.map key).nodup_iff.mpr ((hsub.map key).nodup r.distinct)
  fits := by
    have hperm := swapRemove_perm keep r.entries.length r.entries (Nat.le_refl _)
    rw [hperm.length_eq]
    exact Nat.le_trans (List.length_filter_le keep r.entries) r.fits

variable [DecidableEq κ]

/-- The entry with key `k`. -/
def find (r : Roster key cap) (k : κ) : Option α := r.entries.find? fun a => key a = k

/-- Change the entry with key `k`; the key stays. -/
def update (r : Roster key cap) (k : κ) (f : α → α) (hf : ∀ a, key (f a) = key a) :
    Roster key cap where
  entries := r.entries.map fun a => if key a = k then f a else a
  distinct := by
    have hkeys : (r.entries.map fun a => if key a = k then f a else a).map key =
        r.entries.map key := by
      rw [List.map_map]
      refine List.map_congr_left fun a _ => ?_
      dsimp only [Function.comp]
      split_ifs
      · exact hf a
      · rfl
    rw [hkeys]
    exact r.distinct
  fits := by rw [List.length_map]; exact r.fits

/-- Change every entry; the keys stay. -/
def mapAll (r : Roster key cap) (f : α → α) (hf : ∀ a, key (f a) = key a) : Roster key cap where
  entries := r.entries.map f
  distinct := by
    have hkeys : (r.entries.map f).map key = r.entries.map key := by
      rw [List.map_map]
      exact List.map_congr_left fun a _ => hf a
    rw [hkeys]
    exact r.distinct
  fits := by rw [List.length_map]; exact r.fits

/-- Append an entry under a new key. -/
def insert (r : Roster key cap) (a : α) (hnew : r.find (key a) = none) (hroom : r.full = false) :
    Roster key cap where
  entries := r.entries ++ [a]
  distinct := by
    rw [List.map_append, List.map_singleton, List.nodup_append]
    refine ⟨r.distinct, List.nodup_singleton _, ?_⟩
    rintro k hk _ hk'
    obtain ⟨b, hb, rfl⟩ := List.mem_map.mp hk
    rw [List.mem_singleton.mp hk']
    simpa using List.find?_eq_none.mp hnew b hb
  fits := by
    rw [List.length_append, List.length_singleton]
    exact Nat.not_le.mp (of_decide_eq_false hroom)

/-! ## Looking up afterwards -/

@[simp] theorem find_empty (k : κ) : (empty : Roster key cap).find k = none := rfl

theorem key_of_find {r : Roster key cap} {k : κ} {a : α} (h : r.find k = some a) : key a = k := by
  simpa using List.find?_some h

theorem mem_of_find {r : Roster key cap} {k : κ} {a : α} (h : r.find k = some a) : a ∈ r.entries :=
  List.mem_of_find?_eq_some h

/-- The entry with a key is the only one with it. -/
theorem find_eq_some_iff (r : Roster key cap) (k : κ) (a : α) :
    r.find k = some a ↔ a ∈ r.entries ∧ key a = k := by
  constructor
  · intro h
    exact ⟨mem_of_find h, key_of_find h⟩
  · rintro ⟨ha, rfl⟩
    cases hb : r.find (key a) with
    | none => simpa using List.find?_eq_none.mp hb a ha
    | some b =>
      rw [List.inj_on_of_nodup_map r.distinct (mem_of_find hb) ha (key_of_find hb)]

theorem find_eq_none_iff (r : Roster key cap) (k : κ) :
    r.find k = none ↔ k ∉ r.entries.map key := by
  simp [find, List.find?_eq_none]

/-- A search by key passes through a map that keeps the keys. -/
theorem find?_map_key {g : α → α} (hg : ∀ a, key (g a) = key a) (l : List α) (k : κ) :
    (l.map g).find? (fun a => key a = k) = (l.find? fun a => key a = k).map g := by
  have hpred : (fun a => decide (key a = k)) ∘ g = fun a => decide (key a = k) := by
    funext a
    exact congrArg (fun x => decide (x = k)) (hg a)
  rw [List.find?_map, hpred]

theorem find_update (r : Roster key cap) (k : κ) (f : α → α) (hf : ∀ a, key (f a) = key a) (k' : κ) :
    (r.update k f hf).find k' = if k' = k then (r.find k').map f else r.find k' := by
  have hkey : ∀ a, key (if key a = k then f a else a) = key a := by
    intro a
    split_ifs
    · exact hf a
    · rfl
  have hlook : (r.update k f hf).find k' =
      (r.find k').map fun a => if key a = k then f a else a :=
    find?_map_key hkey r.entries k'
  rw [hlook]
  cases ha : r.find k' with
  | none => split_ifs <;> rfl
  | some a =>
    rw [Option.map_some, key_of_find ha]
    split_ifs <;> rfl

theorem find_mapAll (r : Roster key cap) (f : α → α) (hf : ∀ a, key (f a) = key a) (k : κ) :
    (r.mapAll f hf).find k = (r.find k).map f := find?_map_key hf r.entries k

/-- Two rosters with the same keys in the same order agree where their entries do. -/
theorem map_entries_eq {β : Type} {r r' : Roster key cap} (f : α → β)
    (hkeys : r'.entries.map key = r.entries.map key)
    (hfind : ∀ k, (r'.find k).map f = (r.find k).map f) : r'.entries.map f = r.entries.map f := by
  have hlook : ∀ r : Roster key cap, (r.entries.map f).map some =
      (r.entries.map key).map fun k => (r.find k).map f := by
    intro r
    rw [List.map_map, List.map_map]
    refine List.map_congr_left fun a ha => ?_
    have hsome := (find_eq_some_iff r (key a) a).mpr ⟨ha, rfl⟩
    simp only [Function.comp, hsome, Option.map_some]
  have hsame : (r'.entries.map f).map some = (r.entries.map f).map some := by
    rw [hlook r', hlook r, hkeys]
    exact List.map_congr_left fun k _ => hfind k
  exact List.map_injective_iff.mpr (fun _ _ h => Option.some.inj h) hsame

theorem find_insert (r : Roster key cap) (a : α) (hnew : r.find (key a) = none)
    (hroom : r.full = false) (k : κ) :
    (r.insert a hnew hroom).find k = if k = key a then some a else r.find k := by
  unfold find insert
  rw [List.find?_append]
  by_cases hk : k = key a
  · subst hk
    rw [if_pos rfl]
    unfold find at hnew
    rw [hnew]
    simp
  · rw [if_neg hk, List.find?_singleton, if_neg (by simpa using Ne.symm hk), Option.or_none]

theorem find_retain (r : Roster key cap) (keep : α → Bool) (k : κ) :
    (r.retain keep).find k = (r.find k).filter keep := by
  have hperm := swapRemove_perm keep r.entries.length r.entries (Nat.le_refl _)
  ext a
  rw [find_eq_some_iff, Option.mem_def.symm, Option.mem_filter_iff]
  simp only [retain, hperm.mem_iff, List.mem_filter, Option.mem_def, find_eq_some_iff]
  tauto

/-- There is room for a key that is still missing among at most `cap` of them. -/
theorem full_eq_false {r : Roster key cap} {ks : List κ} (hks : ks.length ≤ cap)
    (hsub : ∀ k, r.find k ≠ none → k ∈ ks) {k : κ} (hk : k ∈ ks) (hnew : r.find k = none) :
    r.full = false := by
  have hnodup : (k :: r.entries.map key).Nodup :=
    List.nodup_cons.mpr ⟨(find_eq_none_iff r k).mp hnew, r.distinct⟩
  have hmem : k :: r.entries.map key ⊆ ks := by
    intro k' hk'
    rcases List.mem_cons.mp hk' with rfl | hk'
    · exact hk
    · apply hsub
      rw [Ne, find_eq_none_iff]
      exact fun h => h hk'
  have hle := (List.subperm_of_subset hnodup hmem).length_le
  rw [List.length_cons, List.length_map] at hle
  simp only [full, decide_eq_false_iff_not]
  omega

end Roster
