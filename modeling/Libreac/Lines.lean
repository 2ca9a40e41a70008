import Mathlib.Data.List.Basic

/-!
# Reading a text by lines

The lines of a text, each with the end that it has, and what a reader gets that takes a line at a time into
a buffer: a line that does not fit comes in pieces, and nothing tells these from lines. They are the lines
exactly when every line fits (`pieces_eq_lines_iff`).
-/

namespace Lines

variable {α : Type} [DecidableEq α] (nl : α)

/-- The lines of a text. The last one may have no end. -/
def lines : List α → List (List α)
  | [] => []
  | c :: cs =>
    if c = nl then [c] :: lines cs
    else
      match lines cs with
      | [] => [[c]]
      | l :: ls => (c :: l) :: ls

/-- What is read into a buffer with room for so many characters, and what is left. -/
def gets : ℕ → List α → List α × List α
  | 0, cs => ([], cs)
  | _ + 1, [] => ([], [])
  | room + 1, c :: cs =>
    if c = nl then ([c], cs)
    else
      let (l, rest) := gets room cs
      (c :: l, rest)

/-- What is read until the text ends, in so many reads at most. -/
def piecesIn (room : ℕ) : ℕ → List α → List (List α)
  | 0, _ => []
  | _ + 1, [] => []
  | n + 1, c :: cs => (gets nl room (c :: cs)).1 :: piecesIn room n (gets nl room (c :: cs)).2

/-- All that is read: every read takes something, so that there are no more of them than characters. -/
def pieces (room : ℕ) (cs : List α) : List (List α) := piecesIn nl room cs.length cs

theorem flatten_lines (cs : List α) : (lines nl cs).flatten = cs := by
  induction cs with
  | nil => rfl
  | cons c cs ih =>
    rw [lines]
    split
    · rw [List.flatten_cons, ih]
      rfl
    · cases hlines : lines nl cs with
      | nil =>
        rw [hlines] at ih
        rw [← ih]
        rfl
      | cons l ls =>
        rw [hlines] at ih
        dsimp only
        rw [List.flatten_cons] at ih ⊢
        rw [List.cons_append, ih]

theorem lines_eq_nil {cs : List α} (h : lines nl cs = []) : cs = [] := by
  rw [← flatten_lines nl cs, h]
  rfl

/-- The first line of a text and the others. -/
theorem lines_cons {cs : List α} {l : List α} {ls : List (List α)} (h : lines nl cs = l :: ls) :
    l ≠ [] ∧ cs = l ++ ls.flatten ∧ lines nl ls.flatten = ls := by
  have hflat := flatten_lines nl cs
  rw [h, List.flatten_cons] at hflat
  refine ⟨?_, hflat.symm, ?_⟩
  · cases cs with
    | nil => contradiction
    | cons c cs =>
      rw [lines] at h
      split at h
      · exact (List.cons.inj h).1 ▸ List.cons_ne_nil _ _
      · cases hlines : lines nl cs with
        | nil =>
          rw [hlines] at h
          exact (List.cons.inj h).1 ▸ List.cons_ne_nil _ _
        | cons l' ls' =>
          rw [hlines] at h
          exact (List.cons.inj h).1 ▸ List.cons_ne_nil _ _
  · clear hflat
    induction cs generalizing l with
    | nil => contradiction
    | cons c cs ih =>
      rw [lines] at h
      split at h
      · obtain ⟨-, rfl⟩ := List.cons.inj h
        rw [flatten_lines]
      · cases hlines : lines nl cs with
        | nil =>
          rw [hlines] at h
          obtain ⟨-, rfl⟩ := List.cons.inj h
          rfl
        | cons l' ls' =>
          rw [hlines] at h
          obtain ⟨-, rfl⟩ := List.cons.inj h
          exact ih hlines

theorem length_gets_le (room : ℕ) (cs : List α) : (gets nl room cs).1.length ≤ room := by
  induction room generalizing cs with
  | zero => exact Nat.le_refl 0
  | succ room ih =>
    cases cs with
    | nil => exact Nat.zero_le _
    | cons c cs =>
      rw [gets]
      split
      · exact Nat.succ_le_succ (Nat.zero_le room)
      · exact Nat.succ_le_succ (ih cs)

/-- A line that fits is read as it stands. -/
theorem gets_line {room : ℕ} {cs : List α} {l : List α} {ls : List (List α)} (h : lines nl cs = l :: ls)
    (hfits : l.length ≤ room) : gets nl room cs = (l, ls.flatten) := by
  induction room generalizing cs l with
  | zero =>
    have hne := (lines_cons nl h).1
    exact absurd (List.eq_nil_of_length_eq_zero (Nat.le_zero.mp hfits)) hne
  | succ room ih =>
    cases cs with
    | nil => contradiction
    | cons c cs =>
      rw [lines] at h
      rw [gets]
      by_cases hnl : c = nl
      · rw [if_pos hnl] at h ⊢
        obtain ⟨rfl, rfl⟩ := List.cons.inj h
        rw [flatten_lines]
      · rw [if_neg hnl] at h ⊢
        cases hlines : lines nl cs with
        | nil =>
          rw [hlines] at h
          obtain ⟨rfl, rfl⟩ := List.cons.inj h
          rw [lines_eq_nil nl hlines]
          cases room <;> rfl
        | cons l' ls' =>
          rw [hlines] at h
          obtain ⟨rfl, rfl⟩ := List.cons.inj h
          rw [List.length_cons] at hfits
          rw [ih hlines (Nat.le_of_succ_le_succ hfits)]

theorem piecesIn_eq_lines {room n : ℕ} {cs : List α} (hn : cs.length ≤ n)
    (h : ∀ l ∈ lines nl cs, l.length ≤ room) : piecesIn nl room n cs = lines nl cs := by
  induction n generalizing cs with
  | zero =>
    rw [List.eq_nil_of_length_eq_zero (Nat.le_zero.mp hn)]
    rfl
  | succ n ih =>
    cases cs with
    | nil => rfl
    | cons c cs =>
      cases hlines : lines nl (c :: cs) with
      | nil => exact absurd (lines_eq_nil nl hlines) (List.cons_ne_nil c cs)
      | cons l ls =>
        obtain ⟨hne, happend, hrest⟩ := lines_cons nl hlines
        rw [hlines] at h
        have hpos := List.length_pos_iff.mpr hne
        have hlen := congrArg List.length happend
        rw [List.length_append] at hlen
        rw [piecesIn, gets_line nl hlines (h l List.mem_cons_self)]
        dsimp only
        rw [ih (by omega), hrest]
        rw [hrest]
        exact fun l' hl' => h l' (List.mem_cons_of_mem l hl')

theorem length_le_of_mem_piecesIn {room n : ℕ} {cs p : List α} (h : p ∈ piecesIn nl room n cs) : p.length ≤ room := by
  induction n generalizing cs with
  | zero => exact absurd h List.not_mem_nil
  | succ n ih =>
    cases cs with
    | nil => exact absurd h List.not_mem_nil
    | cons c cs =>
      rw [piecesIn] at h
      rcases List.mem_cons.mp h with rfl | h
      · exact length_gets_le nl room (c :: cs)
      · exact ih h

/-- What is read are the lines just if every line fits. -/
theorem pieces_eq_lines_iff (room : ℕ) (cs : List α) :
    pieces nl room cs = lines nl cs ↔ ∀ l ∈ lines nl cs, l.length ≤ room := by
  constructor
  · intro h l hl
    rw [← h] at hl
    exact length_le_of_mem_piecesIn nl hl
  · exact piecesIn_eq_lines nl (Nat.le_refl _)

end Lines
