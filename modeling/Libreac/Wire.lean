import Libreac.Machine

/-!
# Two parties on one wire

Two machines put frames on a wire they share. The wire remembers what either has sent; what a party hears
the other has sent at some time, and no more is promised: a frame may be lost, come late, come twice or
overtake another, but nobody makes one up.

Both parties are proved correct apart. What one may rely on is what the other guarantees of every frame at
the moment it sends it (`Guarded`), and `duplex_rely_guarantee` is the one induction over their joint runs.
-/

namespace Reactive

/-- The two ends of a wire. -/
inductive Side where
  | left | right
  deriving DecidableEq, Repr

/-- A machine at one end: a step hears at most one frame and sends at most one. -/
structure Station (σ ι φ : Type) where
  machine : Machine σ ι (Option φ)
  hears : ι → Option φ

/-- The frames of a wire with their senders, in the order in which they were sent. -/
abbrev Traffic (φ : Type) := List (Side × φ)

/-- Two parties and what they have sent. -/
structure Duplex (σ τ φ : Type) where
  left : σ
  right : τ
  wire : Traffic φ := []

variable {σ τ ι κ φ : Type}

/-- What a step puts on the wire. -/
def transmits (side : Side) (f : Option φ) : Traffic φ := (f.map (side, ·)).toList

theorem mem_transmits {side : Side} {f : φ} {o : Option φ} (hf : f ∈ o) : (side, f) ∈ transmits side o :=
  Option.mem_toList.mpr (Option.mem_map_of_mem _ hf)

/-- The two parties as one machine: a step is a step of either. -/
def duplex (A : Station σ ι φ) (B : Station τ κ φ) : Machine (Duplex σ τ φ) (ι ⊕ κ) (Option φ) where
  step d
    | .inl i =>
      let (s, f) := A.machine.step d.left i
      ({ d with left := s, wire := d.wire ++ transmits .left f }, f)
    | .inr k =>
      let (s, f) := B.machine.step d.right k
      ({ d with right := s, wire := d.wire ++ transmits .right f }, f)

/-- What the party that steps hears, the other one has sent. -/
def Delivered (A : Station σ ι φ) (B : Station τ κ φ) (d : Duplex σ τ φ) : ι ⊕ κ → Prop
  | .inl i => ∀ f ∈ A.hears i, (Side.right, f) ∈ d.wire
  | .inr k => ∀ f ∈ B.hears k, (Side.left, f) ∈ d.wire

section Step

variable (A : Station σ ι φ) (B : Station τ κ φ) (d : Duplex σ τ φ)

@[simp] theorem duplex_step_left (i : ι) : ((duplex A B).step d (.inl i)).1 =
    { d with
      left := (A.machine.step d.left i).1
      wire := d.wire ++ transmits .left (A.machine.step d.left i).2 } := rfl

@[simp] theorem duplex_step_right (k : κ) : ((duplex A B).step d (.inr k)).1 =
    { d with
      right := (B.machine.step d.right k).1
      wire := d.wire ++ transmits .right (B.machine.step d.right k).2 } := rfl

end Step

/-! ## Rely and guarantee -/

/-- Every frame met the guarantee of its sender when it was sent, after the frames in front of it. -/
def Guarded (G : Side → Traffic φ → φ → Prop) (w : Traffic φ) : Prop :=
  ∀ pre side f post, w = pre ++ (side, f) :: post → G side pre f

/-- A fact that more traffic leaves true. -/
def Lasting {α : Type} (I : Traffic φ → α → Prop) : Prop := ∀ w x a, I w a → I (w ++ [x]) a

section Guarantee

variable {G : Side → Traffic φ → φ → Prop} {w : Traffic φ}

theorem guarded_nil : Guarded G [] := by
  intro pre side f post h
  simp at h

theorem Guarded.concat (h : Guarded G w) {side : Side} {f : φ} (hf : G side w f) :
    Guarded G (w ++ [(side, f)]) := by
  intro pre side' f' post heq
  rcases List.eq_nil_or_concat post with rfl | ⟨post, last, rfl⟩
  · obtain ⟨rfl, hlast⟩ := List.append_inj' heq rfl
    obtain ⟨rfl, rfl⟩ := Prod.mk.inj (List.singleton_inj.mp hlast)
    exact hf
  · rw [List.concat_eq_append, ← List.cons_append, ← List.append_assoc] at heq
    exact h pre side' f' post (List.append_inj' heq rfl).1

/-- A frame of the wire met its guarantee when it was sent. -/
theorem Guarded.of_mem (h : Guarded G w) {side : Side} {f : φ} (hf : (side, f) ∈ w) :
    ∃ pre post, w = pre ++ (side, f) :: post ∧ G side pre f := by
  obtain ⟨pre, post, rfl⟩ := List.append_of_mem hf
  exact ⟨pre, post, rfl, h pre side f post rfl⟩

theorem Guarded.transmits (h : Guarded G w) {side : Side} {f : Option φ} (hf : ∀ g ∈ f, G side w g) :
    Guarded G (w ++ transmits side f) := by
  cases f with
  | none => simpa [Reactive.transmits] using h
  | some g => exact h.concat (hf g rfl)

theorem Lasting.transmits {α : Type} {I : Traffic φ → α → Prop} (h : Lasting I) {a : α} (ha : I w a)
    (side : Side) (f : Option φ) : I (w ++ Reactive.transmits side f) a := by
  cases f with
  | none => simpa [Reactive.transmits] using ha
  | some g => exact h _ _ _ ha

end Guarantee

/-- A party keeps its own fact about the traffic and its state, and its guarantee, as long as all the
frames of the wire were guaranteed and what it is told from outside is admitted. -/
structure Upholds (A : Station σ ι φ) (admitted : ι → Prop) (me other : Side)
    (G : Side → Traffic φ → φ → Prop) (I : Traffic φ → σ → Prop) : Prop where
  lasting : Lasting I
  step : ∀ w s i, Guarded G w → I w s → admitted i → (∀ f ∈ A.hears i, (other, f) ∈ w) →
    I w (A.machine.step s i).1
  sends : ∀ w s i, Guarded G w → I w s → admitted i → (∀ f ∈ A.hears i, (other, f) ∈ w) →
    ∀ f ∈ (A.machine.step s i).2, G me w f

/-- Two parties that each keep their part keep it together, over every run whose frames are delivered from
the wire, whatever is lost, late, doubled or out of order. -/
theorem duplex_keeps {A : Station σ ι φ} {B : Station τ κ φ} {P : ι → Prop} {Q : κ → Prop}
    {G : Side → Traffic φ → φ → Prop} {L : Traffic φ → σ → Prop} {R : Traffic φ → τ → Prop}
    (hA : Upholds A P .left .right G L) (hB : Upholds B Q .right .left G R) {d : Duplex σ τ φ}
    (hd : Guarded G d.wire ∧ L d.wire d.left ∧ R d.wire d.right) {is : List (ι ⊕ κ)}
    (his : ∀ i ∈ is, Sum.elim P Q i)
    (hwire : ∀ log e, (duplex A B).StepOf d is log e → Delivered A B e.pre e.input) :
    let d' := (duplex A B).run d is
    Guarded G d'.wire ∧ L d'.wire d'.left ∧ R d'.wire d'.right := by
  refine (duplex A B).run_invariant (I := fun d => Guarded G d.wire ∧ L d.wire d.left ∧ R d.wire d.right)
    (L := fun d i => Sum.elim P Q i ∧ Delivered A B d i) hd ?_ is
    fun log e he => ⟨his _ he.input_mem, hwire log e he⟩
  rintro d i ⟨hw, hl, hr⟩ ⟨hadmitted, hheard⟩
  cases i with
  | inl i =>
    rw [duplex_step_left]
    have hpost := hA.step _ _ _ hw hl hadmitted hheard
    exact ⟨hw.transmits (hA.sends _ _ _ hw hl hadmitted hheard), hA.lasting.transmits hpost _ _,
      hB.lasting.transmits hr _ _⟩
  | inr k =>
    rw [duplex_step_right]
    have hpost := hB.step _ _ _ hw hr hadmitted hheard
    exact ⟨hw.transmits (hB.sends _ _ _ hw hr hadmitted hheard), hA.lasting.transmits hl _ _,
      hB.lasting.transmits hpost _ _⟩

/-- So they do from an empty wire. -/
theorem duplex_rely_guarantee {A : Station σ ι φ} {B : Station τ κ φ} {P : ι → Prop} {Q : κ → Prop}
    {G : Side → Traffic φ → φ → Prop} {L : Traffic φ → σ → Prop} {R : Traffic φ → τ → Prop}
    (hA : Upholds A P .left .right G L) (hB : Upholds B Q .right .left G R) {s : σ} {t : τ} (hs : L [] s)
    (ht : R [] t) {is : List (ι ⊕ κ)} (his : ∀ i ∈ is, Sum.elim P Q i)
    (hwire : ∀ log e, (duplex A B).StepOf ⟨s, t, []⟩ is log e → Delivered A B e.pre e.input) :
    let d := (duplex A B).run ⟨s, t, []⟩ is
    Guarded G d.wire ∧ L d.wire d.left ∧ R d.wire d.right :=
  duplex_keeps hA hB ⟨guarded_nil, hs, ht⟩ his hwire

/-- What every step of a party keeps by itself it keeps beside its part. -/
theorem Upholds.beside {A : Station σ ι φ} {admitted : ι → Prop} {me other : Side}
    {G : Side → Traffic φ → φ → Prop} {I : Traffic φ → σ → Prop} (h : Upholds A admitted me other G I)
    {J : σ → Prop} (hJ : ∀ s i, J s → J (A.machine.step s i).1) :
    Upholds A admitted me other G fun w s => I w s ∧ J s where
  lasting w x s hs := ⟨h.lasting w x s hs.1, hs.2⟩
  step w s i hw hs ha hf := ⟨h.step w s i hw hs.1 ha hf, hJ s i hs.2⟩
  sends w s i hw hs ha hf := h.sends w s i hw hs.1 ha hf

/-! ## What the two can come to -/

/-- Some run whose frames are delivered from the wire leads from one state of the two parties to another. -/
def Leads (A : Station σ ι φ) (B : Station τ κ φ) (d d' : Duplex σ τ φ) : Prop :=
  ∃ is, (∀ log e, (duplex A B).StepOf d is log e → Delivered A B e.pre e.input) ∧ (duplex A B).run d is = d'

namespace Leads

variable {A : Station σ ι φ} {B : Station τ κ φ} {d d' d'' : Duplex σ τ φ}

theorem refl (d : Duplex σ τ φ) : Leads A B d d := by
  refine ⟨[], ?_, rfl⟩
  rintro log e ⟨post, he⟩
  simp at he

/-- What a run comes to, it comes to by going on. -/
theorem onward {is : List (ι ⊕ κ)} (hwire : ∀ log e, (duplex A B).StepOf d is log e → Delivered A B e.pre e.input)
    (h : Leads A B ((duplex A B).run d is) d') : ∃ js,
      (∀ log e, (duplex A B).StepOf d (is ++ js) log e → Delivered A B e.pre e.input) ∧
      (duplex A B).run d (is ++ js) = d' := by
  obtain ⟨js, hwire', rfl⟩ := h
  refine ⟨js, ?_, (duplex A B).run_append d is js⟩
  intro log e he
  rcases he.of_append with hfirst | ⟨log', -, hsecond⟩
  · exact hwire log e hfirst
  · exact hwire' log' e hsecond

theorem trans (h : Leads A B d d') (h' : Leads A B d' d'') : Leads A B d d'' := by
  obtain ⟨is, hwire, rfl⟩ := h
  obtain ⟨js, hjs⟩ := Leads.onward hwire h'
  exact ⟨is ++ js, hjs⟩

theorem step {i : ι ⊕ κ} (h : Delivered A B d i) : Leads A B d ((duplex A B).step d i).1 := by
  refine ⟨[i], ?_, rfl⟩
  intro log e he
  rcases he.of_cons with ⟨-, rfl⟩ | ⟨log', -, post, hrest⟩
  · exact h
  · simp at hrest

/-- A step of the party on the left, and what it sends. -/
theorem left (d : Duplex σ τ φ) (i : ι) (h : ∀ f ∈ A.hears i, (Side.right, f) ∈ d.wire) :
    ∃ d', Leads A B d d' ∧ d'.left = (A.machine.step d.left i).1 ∧ d'.right = d.right ∧
      ∀ f ∈ (A.machine.step d.left i).2, (Side.left, f) ∈ d'.wire := by
  refine ⟨_, step (i := .inl i) h, rfl, rfl, ?_⟩
  intro f hf
  exact List.mem_append_right _ (mem_transmits hf)

/-- A step of the party on the right, and what it sends. -/
theorem right (d : Duplex σ τ φ) (k : κ) (h : ∀ f ∈ B.hears k, (Side.left, f) ∈ d.wire) :
    ∃ d', Leads A B d d' ∧ d'.right = (B.machine.step d.right k).1 ∧ d'.left = d.left ∧
      ∀ f ∈ (B.machine.step d.right k).2, (Side.right, f) ∈ d'.wire := by
  refine ⟨_, step (i := .inr k) h, rfl, rfl, ?_⟩
  intro f hf
  exact List.mem_append_right _ (mem_transmits hf)

/-- A run of the party on the left that hears nothing. -/
theorem left_run (d : Duplex σ τ φ) {is : List ι} (h : ∀ i ∈ is, A.hears i = none) :
    ∃ d', Leads A B d d' ∧ d'.left = A.machine.run d.left is ∧ d'.right = d.right := by
  induction is generalizing d with
  | nil => exact ⟨d, refl d, rfl, rfl⟩
  | cons i is ih =>
    obtain ⟨d₁, hstep, hleft, hright, -⟩ := Leads.left (A := A) (B := B) d i (by simp [h i (by simp)])
    obtain ⟨d₂, hrest, hleft', hright'⟩ := ih d₁ fun j hj => h j (List.mem_cons_of_mem _ hj)
    refine ⟨d₂, hstep.trans hrest, ?_, hright'.trans hright⟩
    rw [hleft', hleft, Machine.run_cons]

/-- A run of the party on the right that hears nothing. -/
theorem right_run (d : Duplex σ τ φ) {ks : List κ} (h : ∀ k ∈ ks, B.hears k = none) :
    ∃ d', Leads A B d d' ∧ d'.right = B.machine.run d.right ks ∧ d'.left = d.left := by
  induction ks generalizing d with
  | nil => exact ⟨d, refl d, rfl, rfl⟩
  | cons k ks ih =>
    obtain ⟨d₁, hstep, hright, hleft, -⟩ := Leads.right (A := A) (B := B) d k (by simp [h k (by simp)])
    obtain ⟨d₂, hrest, hright', hleft'⟩ := ih d₁ fun j hj => h j (List.mem_cons_of_mem _ hj)
    refine ⟨d₂, hstep.trans hrest, ?_, hleft'.trans hleft⟩
    rw [hright', hright, Machine.run_cons]

/-- What was sent stays on the wire. -/
theorem wire (h : Leads A B d d') {x : Side × φ} (hx : x ∈ d.wire) : x ∈ d'.wire := by
  obtain ⟨is, -, rfl⟩ := h
  induction is generalizing d with
  | nil => exact hx
  | cons i is ih =>
    rw [Machine.run_cons]
    refine ih ?_
    cases i with
    | inl i => exact List.mem_append_left _ hx
    | inr k => exact List.mem_append_left _ hx

/-- Two parties that keep their parts keep them on the way. -/
theorem keeps {G : Side → Traffic φ → φ → Prop} {L : Traffic φ → σ → Prop} {R : Traffic φ → τ → Prop}
    (h : Leads A B d d') (hA : Upholds A (fun _ => True) .left .right G L)
    (hB : Upholds B (fun _ => True) .right .left G R)
    (hd : Guarded G d.wire ∧ L d.wire d.left ∧ R d.wire d.right) :
    Guarded G d'.wire ∧ L d'.wire d'.left ∧ R d'.wire d'.right := by
  obtain ⟨is, hwire, rfl⟩ := h
  exact duplex_keeps hA hB hd (fun i _ => by cases i <;> trivial) hwire

end Leads

end Reactive
