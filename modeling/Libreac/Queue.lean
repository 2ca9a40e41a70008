import Mathlib.Data.List.Basic

/-!
# Bounded queues

A queue of at most `cap` items, oldest first. An item that finds the queue full is lost, and then so
is every later one: what a series of items leaves in the queue is a prefix of it (`pushAll_items`).
-/

/-- At most `cap` items, oldest first. -/
structure BoundedQueue (α : Type) (cap : ℕ) where
  items : List α
  fits : items.length ≤ cap

namespace BoundedQueue

variable {α : Type} {cap : ℕ}

def empty : BoundedQueue α cap := ⟨[], Nat.zero_le cap⟩

/-- There is no room for another item. -/
def full (q : BoundedQueue α cap) : Bool := cap ≤ q.items.length

theorem full_eq_false {q : BoundedQueue α cap} (h : ¬ q.full = true) : q.items.length < cap := by
  unfold full at h
  rw [decide_eq_true_iff] at h
  omega

/-- Append an item, if there is room for it. -/
def push (q : BoundedQueue α cap) (a : α) : BoundedQueue α cap :=
  if h : q.full = true then q
  else
    { items := q.items ++ [a]
      fits := by
        rw [List.length_append, List.length_singleton]
        exact full_eq_false h }

/-- The oldest item, and the queue behind it. -/
def pop (q : BoundedQueue α cap) : Option (α × BoundedQueue α cap) :=
  match h : q.items with
  | [] => none
  | a :: items => some (a, ⟨items, by have hfits := q.fits; rw [h, List.length_cons] at hfits; omega⟩)

/-- Append items one after the other. -/
def pushAll (q : BoundedQueue α cap) (as : List α) : BoundedQueue α cap := as.foldl push q

@[simp] theorem items_empty : (empty : BoundedQueue α cap).items = [] := rfl

@[ext] theorem ext {q r : BoundedQueue α cap} (h : q.items = r.items) : q = r := by
  cases q
  cases r
  cases h
  rfl

theorem push_items (q : BoundedQueue α cap) (a : α) : (q.push a).items = (q.items ++ [a]).take cap := by
  unfold push
  split_ifs with h
  · have hfull : cap ≤ q.items.length := of_decide_eq_true h
    have hlen : q.items.length = cap := Nat.le_antisymm q.fits hfull
    rw [List.take_append_of_le_length hfull, List.take_of_length_le q.fits]
  · have hroom := full_eq_false h
    rw [List.take_of_length_le (by rw [List.length_append, List.length_singleton]; omega)]

theorem pop_eq_none {q : BoundedQueue α cap} : q.pop = none ↔ q.items = [] := by
  unfold pop
  split
  · next h => exact ⟨fun _ => h, fun _ => rfl⟩
  · next h => exact ⟨nofun, fun hnil => absurd (h.symm.trans hnil) nofun⟩

theorem pop_eq_some {q r : BoundedQueue α cap} {a : α} (h : q.pop = some (a, r)) :
    q.items = a :: r.items := by
  unfold pop at h
  split at h
  · cases h
  · next hq =>
    obtain ⟨rfl, rfl⟩ := Prod.mk.inj (Option.some.inj h)
    exact hq

/-- What a series of items leaves in the queue. -/
theorem pushAll_items (q : BoundedQueue α cap) (as : List α) :
    (q.pushAll as).items = (q.items ++ as).take cap := by
  induction as generalizing q with
  | nil => rw [List.append_nil, List.take_of_length_le q.fits]; rfl
  | cons a as ih =>
    show ((q.push a).pushAll as).items = _
    rw [ih, push_items]
    by_cases hroom : q.items.length < cap
    · rw [List.take_of_length_le (l := q.items ++ [a]) (by rw [List.length_append]; exact hroom), List.append_assoc,
        List.singleton_append]
    · have hcap : cap ≤ q.items.length := Nat.not_lt.mp hroom
      rw [List.take_append_of_le_length hcap, List.take_append_of_le_length hcap,
        List.take_append_of_le_length (by rw [List.length_take]; omega), List.take_take, Nat.min_self]

theorem pushAll_append (q : BoundedQueue α cap) (as bs : List α) :
    q.pushAll (as ++ bs) = (q.pushAll as).pushAll bs := List.foldl_append

end BoundedQueue
