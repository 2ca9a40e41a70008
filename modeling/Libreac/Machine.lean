import Mathlib.Data.List.Chain
import Mathlib.Data.List.Induction

/-!
# Deterministic machines and their traces

A machine consumes one input at a time; each step yields an output and the next state. A run is
recorded as the list of its steps (`Machine.trace`), so a property of a whole run can speak about
what happened since some earlier step (`sinceLast`, `fromLast`).

The two induction rules at the end (`Machine.run_invariant` and `Machine.trace_invariant`) are the
only inductions over runs: a client proves what holds initially and what one step preserves.
-/

namespace Reactive

/-- One step of a run: the state before, the input, the output and the state after. -/
structure Event (σ ι ο : Type) where
  pre : σ
  input : ι
  out : ο
  post : σ

/-- A deterministic machine over states `σ`, inputs `ι` and outputs `ο`. -/
structure Machine (σ ι ο : Type) where
  step : σ → ι → σ × ο

/-! ## What happened since -/

section Since

variable {α : Type} (p : α → Bool)

/-- The part of the list after its last element that satisfies `p` (the whole list if none does). -/
def sinceLast (l : List α) : List α :=
  l.foldl (fun acc a => if p a then [] else acc ++ [a]) []

/-- As `sinceLast`, with the element that satisfies `p` in front. -/
def fromLast (l : List α) : List α :=
  l.foldl (fun acc a => if p a then [a] else acc ++ [a]) []

@[simp] theorem sinceLast_nil : sinceLast p [] = [] := rfl

@[simp] theorem fromLast_nil : fromLast p [] = [] := rfl

theorem sinceLast_concat (l : List α) (a : α) :
    sinceLast p (l ++ [a]) = if p a then [] else sinceLast p l ++ [a] := by
  simp [sinceLast, List.foldl_append]

theorem fromLast_concat (l : List α) (a : α) :
    fromLast p (l ++ [a]) = if p a then [a] else fromLast p l ++ [a] := by
  simp [fromLast, List.foldl_append]

/-- What follows the last element that satisfies `p`, or a list without one. -/
theorem fromLast_append_cons {l r : List α} {a : α} (ha : l = [] ∨ p a = true)
    (hr : ∀ b ∈ r, p b = false) : fromLast p (l ++ a :: r) = a :: r := by
  induction r using List.reverseRecOn with
  | nil =>
    rw [fromLast_concat]
    rcases ha with rfl | ha
    · simp
    · rw [if_pos ha]
  | append_singleton r b ih =>
    have hr' : ∀ c ∈ r, p c = false := by
      intro c hc
      exact hr c (List.mem_append_left _ hc)
    rw [← List.cons_append, ← List.append_assoc, fromLast_concat, hr b (by simp), ih hr']
    simp

/-- What follows without satisfying `p` is kept. -/
theorem sinceLast_append {l r : List α} (h : ∀ a ∈ r, p a = false) :
    sinceLast p (l ++ r) = sinceLast p l ++ r := by
  induction r using List.reverseRecOn with
  | nil => simp
  | append_singleton r a ih =>
    have hr : ∀ b ∈ r, p b = false := by
      intro b hb
      exact h b (List.mem_append_left _ hb)
    rw [← List.append_assoc, sinceLast_concat, h a (by simp), ih hr]
    simp

theorem mem_of_mem_sinceLast {l : List α} {a : α} (h : a ∈ sinceLast p l) : a ∈ l := by
  induction l using List.reverseRecOn with
  | nil => exact h
  | append_singleton l b ih =>
    rw [sinceLast_concat] at h
    split_ifs at h
    · cases h
    · rcases List.mem_append.mp h with h | h
      · exact List.mem_append_left _ (ih h)
      · exact List.mem_append_right _ h

end Since

namespace Machine

variable {σ ι ο : Type} (M : Machine σ ι ο)

/-- The step taken in state `s` on input `i`. -/
def event (s : σ) (i : ι) : Event σ ι ο where
  pre := s
  input := i
  out := (M.step s i).2
  post := (M.step s i).1

/-- The state after the inputs `is`. -/
def run (s : σ) (is : List ι) : σ := is.foldl (fun s i => (M.step s i).1) s

/-- The steps taken on the inputs `is`. -/
def trace (s : σ) : List ι → List (Event σ ι ο)
  | [] => []
  | i :: is => M.event s i :: trace (M.step s i).1 is

@[simp] theorem event_pre (s : σ) (i : ι) : (M.event s i).pre = s := rfl

@[simp] theorem event_input (s : σ) (i : ι) : (M.event s i).input = i := rfl

@[simp] theorem event_out (s : σ) (i : ι) : (M.event s i).out = (M.step s i).2 := rfl

@[simp] theorem event_post (s : σ) (i : ι) : (M.event s i).post = (M.step s i).1 := rfl

@[simp] theorem run_nil (s : σ) : M.run s [] = s := rfl

@[simp] theorem run_cons (s : σ) (i : ι) (is : List ι) :
    M.run s (i :: is) = M.run (M.step s i).1 is := rfl

theorem run_append (s : σ) (is js : List ι) : M.run s (is ++ js) = M.run (M.run s is) js := by
  simp [run, List.foldl_append]

@[simp] theorem trace_nil (s : σ) : M.trace s [] = [] := rfl

@[simp] theorem trace_cons (s : σ) (i : ι) (is : List ι) :
    M.trace s (i :: is) = M.event s i :: M.trace (M.step s i).1 is := rfl

theorem trace_append (s : σ) (is js : List ι) :
    M.trace s (is ++ js) = M.trace s is ++ M.trace (M.run s is) js := by
  induction is generalizing s with
  | nil => rfl
  | cons i is ih => simp [ih]

theorem trace_concat (s : σ) (is : List ι) (i : ι) :
    M.trace s (is ++ [i]) = M.trace s is ++ [M.event (M.run s is) i] := by
  rw [trace_append]; rfl

theorem run_concat (s : σ) (is : List ι) (i : ι) :
    M.run s (is ++ [i]) = (M.event (M.run s is) i).post := by
  rw [run_append]; rfl

/-- A step of a run is the step taken after some prefix of the inputs. -/
theorem trace_split {s : σ} {is : List ι} {pre post : List (Event σ ι ο)} {e : Event σ ι ο}
    (h : M.trace s is = pre ++ e :: post) :
    ∃ is₁ i is₂, is = is₁ ++ i :: is₂ ∧ pre = M.trace s is₁ ∧ e = M.event (M.run s is₁) i := by
  induction is generalizing s pre with
  | nil => simp at h
  | cons i is ih =>
    cases pre with
    | nil =>
      simp only [trace_cons, List.nil_append, List.cons.injEq] at h
      exact ⟨[], i, is, rfl, rfl, h.1.symm⟩
    | cons e₀ pre =>
      simp only [trace_cons, List.cons_append, List.cons.injEq] at h
      obtain ⟨is₁, j, is₂, rfl, rfl, rfl⟩ := ih h.2
      exact ⟨i :: is₁, j, is₂, rfl, by simp [← h.1], rfl⟩

@[simp] theorem trace_length (s : σ) (is : List ι) : (M.trace s is).length = is.length := by
  induction is generalizing s with
  | nil => rfl
  | cons i is ih => simp [ih]

/-- Every input of a run is that of one of its steps. -/
theorem mem_inputs {s : σ} {is : List ι} {i : ι} (h : i ∈ is) : ∃ e ∈ M.trace s is, e.input = i := by
  induction is generalizing s with
  | nil => cases h
  | cons j is ih =>
    rcases List.mem_cons.mp h with rfl | h
    · exact ⟨M.event s i, List.mem_cons_self .., rfl⟩
    · obtain ⟨e, he, hi⟩ := ih h
      exact ⟨e, List.mem_cons_of_mem _ he, hi⟩

/-- A prefix of a run is the run on a prefix of the inputs. -/
theorem trace_eq_append {s : σ} {is : List ι} {pre post : List (Event σ ι ο)}
    (h : M.trace s is = pre ++ post) :
    ∃ is₁ is₂, is = is₁ ++ is₂ ∧ pre = M.trace s is₁ ∧ post = M.trace (M.run s is₁) is₂ := by
  induction pre generalizing s is with
  | nil => exact ⟨[], is, rfl, rfl, by simpa using h.symm⟩
  | cons e pre ih =>
    cases is with
    | nil => simp at h
    | cons i is =>
      simp only [trace_cons, List.cons_append, List.cons.injEq] at h
      obtain ⟨is₁, is₂, rfl, rfl, rfl⟩ := ih h.2
      exact ⟨i :: is₁, is₂, rfl, by simp [← h.1], rfl⟩

/-- `e` is a step of the run on `is`, taken after the steps `log`. -/
def StepOf (s : σ) (is : List ι) (log : List (Event σ ι ο)) (e : Event σ ι ο) : Prop :=
  ∃ post, M.trace s is = log ++ e :: post

theorem StepOf.append {s : σ} {is : List ι} {log : List (Event σ ι ο)} {e : Event σ ι ο}
    (h : M.StepOf s is log e) (js : List ι) : M.StepOf s (is ++ js) log e := by
  obtain ⟨post, h⟩ := h
  exact ⟨post ++ M.trace (M.run s is) js, by rw [trace_append, h]; simp⟩

theorem stepOf_last (s : σ) (is : List ι) (i : ι) :
    M.StepOf s (is ++ [i]) (M.trace s is) (M.event (M.run s is) i) :=
  ⟨[], M.trace_concat s is i⟩

theorem StepOf.of_append {s : σ} {is js : List ι} {log : List (Event σ ι ο)} {e : Event σ ι ο}
    (he : M.StepOf s (is ++ js) log e) :
    M.StepOf s is log e ∨ ∃ log', log = M.trace s is ++ log' ∧ M.StepOf (M.run s is) js log' e := by
  obtain ⟨post, he⟩ := he
  rw [trace_append, List.append_eq_append_iff] at he
  rcases he with ⟨log', rfl, he⟩ | ⟨rest, he, hpost⟩
  · exact .inr ⟨log', rfl, post, he⟩
  · cases rest with
    | nil =>
      rw [List.append_nil] at he
      exact .inr ⟨[], by rw [he, List.append_nil], post, hpost.symm⟩
    | cons e' rest =>
      obtain ⟨rfl, -⟩ := List.cons.inj hpost
      exact .inl ⟨rest, he⟩

theorem StepOf.of_cons {s : σ} {i : ι} {is : List ι} {log : List (Event σ ι ο)} {e : Event σ ι ο}
    (he : M.StepOf s (i :: is) log e) :
    log = [] ∧ e = M.event s i ∨
      ∃ log', log = M.event s i :: log' ∧ M.StepOf (M.step s i).1 is log' e := by
  obtain ⟨post, he⟩ := he
  rw [trace_cons] at he
  cases log with
  | nil => exact .inl ⟨rfl, (List.cons.inj he).1.symm⟩
  | cons e' log =>
    obtain ⟨rfl, hrest⟩ := List.cons.inj he
    exact .inr ⟨log, rfl, post, hrest⟩

/-- A step of a run consumes one of its inputs. -/
theorem StepOf.input_mem {s : σ} {is : List ι} {log : List (Event σ ι ο)} {e : Event σ ι ο}
    (he : M.StepOf s is log e) : e.input ∈ is := by
  obtain ⟨post, he⟩ := he
  obtain ⟨is₁, i, is₂, rfl, -, rfl⟩ := M.trace_split he
  simp

theorem StepOf.mem_trace {s : σ} {is : List ι} {log : List (Event σ ι ο)} {e : Event σ ι ο}
    (he : M.StepOf s is log e) : e ∈ M.trace s is := by
  obtain ⟨post, he⟩ := he
  rw [he]
  exact List.mem_append_right _ List.mem_cons_self

/-- What holds of every position of a trace holds of every step. -/
theorem forall_stepOf {P : List (Event σ ι ο) → Event σ ι ο → Prop} {s : σ} {is : List ι}
    (h : ∀ n, (hn : n < (M.trace s is).length) → P ((M.trace s is).take n) ((M.trace s is)[n])) :
    ∀ log e, M.StepOf s is log e → P log e := by
  rintro log e ⟨post, he⟩
  have hn : log.length < (M.trace s is).length := by
    rw [he]
    simp
  have hat := h log.length hn
  simp only [he, List.take_left, List.getElem_append_right (Nat.le_refl _), Nat.sub_self,
    List.getElem_cons_zero] at hat
  exact hat

/-- So does every step before it. -/
theorem StepOf.log_input_mem {s : σ} {is : List ι} {log : List (Event σ ι ο)} {e l : Event σ ι ο}
    (he : M.StepOf s is log e) (hl : l ∈ log) : l.input ∈ is := by
  obtain ⟨pre, post, rfl⟩ := List.append_of_mem hl
  obtain ⟨rest, he⟩ := he
  have hstep : M.StepOf s is pre l := ⟨post ++ e :: rest, by rw [he]; simp⟩
  exact hstep.input_mem M

/-- Inputs that are pairwise related are so at every step of the run. -/
theorem StepOf.of_pairwise {R : ι → ι → Prop} {s : σ} {is : List ι} {log : List (Event σ ι ο)}
    {e l : Event σ ι ο} (h : is.Pairwise R) (he : M.StepOf s is log e) (hl : l ∈ log) :
    R l.input e.input := by
  obtain ⟨post, he⟩ := he
  obtain ⟨is₁, i, is₂, rfl, rfl, rfl⟩ := M.trace_split he
  obtain ⟨before, after, hl⟩ := List.append_of_mem hl
  have hin : l.input ∈ is₁ := StepOf.input_mem M ⟨after, hl⟩
  exact (List.pairwise_append.mp h).2.2 _ hin _ (List.mem_cons_self ..)

/-- Where neighbouring steps are related, a step is related to the one before it. -/
theorem StepOf.of_isChain {R : Event σ ι ο → Event σ ι ο → Prop} {s : σ} {is : List ι}
    {log : List (Event σ ι ο)} {e : Event σ ι ο} (h : (M.trace s is).IsChain R)
    (he : M.StepOf s is log e) : ∀ l ∈ log.getLast?, R l e := by
  obtain ⟨post, he⟩ := he
  rw [he, List.isChain_append] at h
  exact fun l hl => h.2.2 l hl e rfl

/-- What came before a step, the step and what follows make up the inputs. -/
theorem StepOf.inputs {s : σ} {is : List ι} {log : List (Event σ ι ο)} {e : Event σ ι ο}
    (he : M.StepOf s is log e) : ∃ rest, is = log.map Event.input ++ e.input :: rest := by
  obtain ⟨post, he⟩ := he
  obtain ⟨is₁, i, is₂, rfl, rfl, rfl⟩ := M.trace_split he
  have hmap : ∀ s, (M.trace s is₁).map Event.input = is₁ := by
    intro s
    clear he
    induction is₁ generalizing s with
    | nil => rfl
    | cons i is ih => simp [ih]
  exact ⟨is₂, by rw [hmap, event_input]⟩

/-! ## Induction over runs -/

/-- A history predicate that holds initially and is preserved by every legal step holds at the end
of every legal run. Legality of a step may depend on the steps before it. -/
theorem trace_invariant {H : List (Event σ ι ο) → σ → Prop}
    {L : List (Event σ ι ο) → Event σ ι ο → Prop} {s₀ : σ} (h₀ : H [] s₀)
    (hstep : ∀ log s i, H log s → L log (M.event s i) →
      H (log ++ [M.event s i]) (M.step s i).1)
    (is : List ι) (hL : ∀ log e, M.StepOf s₀ is log e → L log e) :
    H (M.trace s₀ is) (M.run s₀ is) := by
  induction is using List.reverseRecOn with
  | nil => exact h₀
  | append_singleton is i ih =>
    rw [trace_concat, run_append]
    exact hstep _ _ _ (ih fun log e he => hL log e (he.append M [i])) (hL _ _ (M.stepOf_last _ _ _))

/-- At every step of a legal run the history predicate holds of what came before it. -/
theorem trace_invariant_at {H : List (Event σ ι ο) → σ → Prop}
    {L : List (Event σ ι ο) → Event σ ι ο → Prop} {s₀ : σ} (h₀ : H [] s₀)
    (hstep : ∀ log s i, H log s → L log (M.event s i) →
      H (log ++ [M.event s i]) (M.step s i).1)
    {is : List ι} (hL : ∀ log e, M.StepOf s₀ is log e → L log e)
    {log : List (Event σ ι ο)} {e : Event σ ι ο} (he : M.StepOf s₀ is log e) :
    H log e.pre ∧ e = M.event e.pre e.input := by
  obtain ⟨post, he⟩ := he
  obtain ⟨is₁, i, is₂, rfl, rfl, rfl⟩ := M.trace_split he
  refine ⟨?_, rfl⟩
  exact M.trace_invariant h₀ hstep is₁ fun log e he => hL log e (he.append M (i :: is₂))

/-- A state predicate preserved by every legal step holds at the end of every legal run. -/
theorem run_invariant {I : σ → Prop} {L : σ → ι → Prop} {s₀ : σ} (h₀ : I s₀)
    (hstep : ∀ s i, I s → L s i → I (M.step s i).1) (is : List ι)
    (hL : ∀ log e, M.StepOf s₀ is log e → L e.pre e.input) : I (M.run s₀ is) :=
  M.trace_invariant (H := fun _ s => I s) (L := fun _ e => L e.pre e.input) h₀
    (fun _ s i h hl => hstep s i h hl) is hL

/-! ## One-shot outputs -/

section OneShot

variable {s : σ} {is : List ι} {P : List (Event σ ι ο) → Event σ ι ο → Prop} {fires : Event σ ι ο → Prop}

/-- A step of the run up to some step is a step of the run. -/
theorem StepOf.of_prefix {log before : List (Event σ ι ο)} {e l : Event σ ι ο}
    (he : M.StepOf s is log e) (hl : before ++ [l] <+: log) : M.StepOf s is before l := by
  obtain ⟨post, he⟩ := he
  obtain ⟨rest, rfl⟩ := hl
  exact ⟨rest ++ e :: post, by rw [he]; simp⟩

/-- Where a step fires exactly if `P` holds of it and no step before it fired, none of the steps so
far fired as long as `P` held of none of them. -/
theorem none_fired_iff
    (h : ∀ log e, M.StepOf s is log e → (fires e ↔ P log e ∧ ∀ l ∈ log, ¬ fires l))
    {log : List (Event σ ι ο)} {e : Event σ ι ο} (he : M.StepOf s is log e) :
    (∀ l ∈ log, ¬ fires l) ↔ ∀ before l, before ++ [l] <+: log → ¬ P before l := by
  constructor
  · intro hnone before l hl hdue
    have hmem : l ∈ log := hl.subset (by simp)
    refine hnone l hmem ((h before l (he.of_prefix M hl)).mpr ⟨hdue, fun b hb => ?_⟩)
    exact hnone b (hl.subset (List.mem_append_left _ hb))
  · intro hnone l hl hfires
    obtain ⟨before, after, rfl⟩ := List.append_of_mem hl
    have hpre : before ++ [l] <+: before ++ l :: after := ⟨after, by simp⟩
    exact hnone before l hpre ((h before l (he.of_prefix M hpre)).mp hfires).1

/-- Such a step fires exactly if it is the first of which `P` holds. -/
theorem fires_iff_first
    (h : ∀ log e, M.StepOf s is log e → (fires e ↔ P log e ∧ ∀ l ∈ log, ¬ fires l))
    {log : List (Event σ ι ο)} {e : Event σ ι ο} (he : M.StepOf s is log e) :
    fires e ↔ P log e ∧ ∀ before l, before ++ [l] <+: log → ¬ P before l := by
  rw [h log e he, M.none_fired_iff h he]

/-- So the run fires at most once. -/
theorem countP_fires_le_one [DecidablePred fires]
    (h : ∀ log e, M.StepOf s is log e → (fires e ↔ P log e ∧ ∀ l ∈ log, ¬ fires l)) :
    (M.trace s is).countP fires ≤ 1 := by
  induction is using List.reverseRecOn with
  | nil => simp
  | append_singleton is i ih =>
    have hcount := ih fun log e he => h log e (he.append M [i])
    rw [trace_concat, List.countP_append, List.countP_singleton]
    split_ifs with hfires
    · have hnone := ((h _ _ (M.stepOf_last s is i)).mp (of_decide_eq_true hfires)).2
      rw [List.countP_eq_zero.mpr fun l hl => by simpa using hnone l hl]
    · simpa using hcount

end OneShot

/-! ## Two runs -/

/-- An input of two runs: both take it, or only the second does. -/
inductive Offered (ι : Type) where
  | both (i : ι)
  | extra (i : ι)
  deriving DecidableEq

/-- The input, if both runs take it. -/
def Offered.both? {ι : Type} : Offered ι → Option ι
  | .both i => some i
  | .extra _ => none

/-- The input, if only the second run takes it. -/
def Offered.extra? {ι : Type} : Offered ι → Option ι
  | .both _ => none
  | .extra i => some i

/-- The input. -/
def Offered.input {ι : Type} : Offered ι → ι
  | .both i => i
  | .extra i => i

/-- Two runs of one machine, side by side. -/
def twin : Machine (σ × σ) (Offered ι) Unit where
  step s i :=
    match i with
    | .both i => (((M.step s.1 i).1, (M.step s.2 i).1), ())
    | .extra i => ((s.1, (M.step s.2 i).1), ())

@[simp] theorem twin_step_both (s : σ × σ) (i : ι) :
    (M.twin.step s (.both i)).1 = ((M.step s.1 i).1, (M.step s.2 i).1) := rfl

@[simp] theorem twin_step_extra (s : σ × σ) (i : ι) :
    (M.twin.step s (.extra i)).1 = (s.1, (M.step s.2 i).1) := rfl

theorem twin_run (s t : σ) (is : List (Offered ι)) :
    M.twin.run (s, t) is = (M.run s (is.filterMap Offered.both?), M.run t (is.map Offered.input)) := by
  induction is generalizing s t with
  | nil => rfl
  | cons i is ih => cases i <;> exact ih _ _

end Machine

end Reactive
