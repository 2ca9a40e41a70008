import Libreac.Knock
import Mathlib.Algebra.Order.Group.Nat

/-!
# One licence, at the first proof of silence

In a run whose clock does not go back, a cancelled observation keeps the time of the last frame,
and an open one that of its end (`KnockLog`). So a step drives exactly if the wire has been silent
for a whole window and no step before it drove (`knock_drives`), which makes it the first such step.
-/

namespace Libreac

open Reactive

/-- A call on the observation, as it was taken. -/
abbrev KnockStep := Event Knock KnockInput KnockAct

/-- The call `e` after the calls `log` is a step a whole window behind the init at `opened` and
behind every frame heard. -/
def WireSilent (opened : UInt64) (log : List KnockStep) (e : KnockStep) : Prop :=
  ∃ now, e.input = .step now ∧ opened.toNat + knockListenNs.toNat ≤ now.toNat ∧
    ∀ l ∈ log, ∀ heard, l.input = .heard heard → heard.toNat + knockListenNs.toNat ≤ now.toNat

/-- The call returned `REAC_KNOCK_ACT_DRIVE`. -/
def Drives (e : KnockStep) : Prop := e.out = .drive

instance : DecidablePred Drives := fun _ => inferInstanceAs (Decidable (_ = _))

/-- The clock has not gone back, and the window behind it ends before the clock does. -/
structure KnockLegal (opened : UInt64) (log : List KnockStep) (e : KnockStep) : Prop where
  opened_le : opened ≤ e.input.now
  log_le : ∀ l ∈ log, l.input.now ≤ e.input.now
  room : e.input.now.toNat + knockListenNs.toNat < 2 ^ 64

/-- What the calls `log` leave of an observation opened at `opened`. -/
structure KnockLog (opened : UInt64) (log : List KnockStep) (k : Knock) : Prop where
  proven : k.state = .proven ↔ ∃ l ∈ log, Drives l
  listening : k.state = .listening → k.dueNs.toNat = opened.toNat + knockListenNs.toNat ∧
    ∀ l ∈ log, ∀ heard, l.input ≠ .heard heard
  cancelled : k.state = .cancelled → opened ≤ k.heardNs ∧
    k.heardNs.toNat + knockListenNs.toNat < 2 ^ 64 ∧
    (∃ l ∈ log, l.input = .heard k.heardNs) ∧
    ∀ l ∈ log, ∀ heard, l.input = .heard heard → heard ≤ k.heardNs

section Step

variable {opened now : UInt64} {log : List KnockStep} {k : Knock}

/-- `reac_knock_step` behind the re-opening: the licence is granted, or nothing happens. -/
theorem knockClose_cases (k : Knock) (now : UInt64) :
    (k.state = .listening ∧ k.dueNs ≤ now ∧
      knockClose k now = ({ k with state := .proven, granted := true }, .drive)) ∨
    (¬ (k.state = .listening ∧ k.dueNs ≤ now) ∧ knockClose k now = (k, .none)) := by
  unfold knockClose
  split_ifs with hstate hdue
  · exact .inr ⟨fun h => hstate h.1, rfl⟩
  · exact .inr ⟨fun h => (UInt64.not_le.mpr hdue) h.2, rfl⟩
  · rw [not_not] at hstate
    exact .inl ⟨hstate, UInt64.not_lt.mp hdue, rfl⟩

/-- Whether a step is to drive, by the field that is authoritative in the state it is taken in. -/
def KnockDue (k : Knock) (now : UInt64) : Prop :=
  k.state = .listening ∧ k.dueNs.toNat ≤ now.toNat ∨
    k.state = .cancelled ∧ k.heardNs.toNat + knockListenNs.toNat ≤ now.toNat

/-- A step drives and leaves the licence granted, or it changes nothing. -/
theorem knockStep_cases (now : UInt64)
    (hroom : k.state = .cancelled → k.heardNs.toNat + knockListenNs.toNat < 2 ^ 64) :
    (KnockDue k now ∧ (knockStep k now).2 = .drive ∧ (knockStep k now).1.state = .proven) ∨
    (¬ KnockDue k now ∧ knockStep k now = (k, .none)) := by
  have hlisten : knockListenNs.toNat = 500000000 := rfl
  unfold knockStep
  split_ifs with hstate hle hsub
  · refine .inr ⟨?_, rfl⟩
    rw [UInt64.le_iff_toNat_le] at hle
    simp only [KnockDue, hstate, reduceCtorEq, false_and, true_and, false_or]
    omega
  · refine .inr ⟨?_, rfl⟩
    rw [UInt64.le_iff_toNat_le] at hle
    have hsub' := UInt64.lt_iff_toNat_lt.mp hsub
    rw [UInt64.toNat_sub_of_le _ _ (UInt64.le_iff_toNat_le.mpr (by omega))] at hsub'
    simp only [KnockDue, hstate, reduceCtorEq, false_and, true_and, false_or]
    omega
  · -- The end of the window, counted from the frame, does not wrap: the re-opened step drives.
    have hwindow := hroom hstate
    have hle' := UInt64.le_iff_toNat_le.not.mp hle
    have hsub' := UInt64.lt_iff_toNat_lt.not.mp hsub
    rw [UInt64.toNat_sub_of_le _ _ (UInt64.le_iff_toNat_le.mpr (by omega))] at hsub'
    have hdue : k.heardNs + knockListenNs ≤ now := by
      rw [UInt64.le_iff_toNat_le, UInt64.toNat_add, Nat.mod_eq_of_lt hwindow]
      omega
    obtain ⟨-, -, hclose⟩ | ⟨hnot, -⟩ :=
      knockClose_cases { k with state := .listening, dueNs := k.heardNs + knockListenNs } now
    · exact .inl ⟨.inr ⟨hstate, by omega⟩, by rw [hclose], by rw [hclose]⟩
    · exact absurd ⟨rfl, hdue⟩ hnot
  · have hiff : KnockDue k now ↔ k.state = .listening ∧ k.dueNs ≤ now := by
      simp [KnockDue, hstate, UInt64.le_iff_toNat_le]
    rw [hiff]
    obtain ⟨hlist, hdue, hclose⟩ | ⟨hnot, hclose⟩ := knockClose_cases k now
    · exact .inl ⟨⟨hlist, hdue⟩, by rw [hclose], by rw [hclose]⟩
    · exact .inr ⟨hnot, hclose⟩

/-- What the log says of a step: it is due exactly if the wire is silent and none drove before. -/
theorem KnockLog.due_iff (h : KnockLog opened log k) :
    KnockDue k now ↔
      WireSilent opened log (knockMachine.event k (.step now)) ∧ ∀ l ∈ log, ¬ Drives l := by
  have hnone : (∀ l ∈ log, ¬ Drives l) ↔ k.state ≠ .proven := by
    rw [ne_eq, h.proven]
    simp
  rw [hnone]
  cases hstate : k.state with
  | proven => simp [KnockDue, hstate]
  | listening =>
    obtain ⟨hdue, hquiet⟩ := h.listening hstate
    constructor
    · rintro (⟨-, hle⟩ | ⟨hc, -⟩)
      · refine ⟨⟨now, rfl, by omega, fun l hl heard hin => absurd hin (hquiet l hl heard)⟩, by simp⟩
      · simp [hstate] at hc
    · rintro ⟨⟨_, hin, hle, -⟩, -⟩
      cases hin
      exact .inl ⟨hstate, by omega⟩
  | cancelled =>
    obtain ⟨hopened, -, ⟨l₀, hl₀, hin₀⟩, hlast⟩ := h.cancelled hstate
    constructor
    · rintro (⟨hc, -⟩ | ⟨-, hle⟩)
      · simp [hstate] at hc
      · rw [UInt64.le_iff_toNat_le] at hopened
        refine ⟨⟨now, rfl, by omega, fun l hl heard hin => ?_⟩, by simp⟩
        have hheard := UInt64.le_iff_toNat_le.mp (hlast l hl heard hin)
        omega
    · rintro ⟨⟨_, hin, -, hall⟩, -⟩
      cases hin
      exact .inr ⟨hstate, hall l₀ hl₀ _ hin₀⟩

end Step

/-! ## Runs -/

section Runs

variable {opened : UInt64} {log : List KnockStep} {k : Knock}

theorem KnockLog.init (hroom : opened.toNat + knockListenNs.toNat < 2 ^ 64) :
    KnockLog opened [] (knockInit opened) where
  proven := by simp [knockInit]
  listening := by
    intro _
    refine ⟨?_, by simp⟩
    show (opened + knockListenNs).toNat = _
    rw [UInt64.toNat_add, Nat.mod_eq_of_lt hroom]
  cancelled := by simp [knockInit]

/-- A frame heard leaves the log and its own time in it. -/
theorem KnockLog.heard (h : KnockLog opened log k) {now : UInt64}
    (hlegal : KnockLegal opened log (knockMachine.event k (.heard now))) :
    KnockLog opened (log ++ [knockMachine.event k (.heard now)]) (knockHeard k now) := by
  have hsilent : ¬ Drives (knockMachine.event k (.heard now)) := by simp [Drives, knockMachine]
  have hstate : (knockHeard k now).state = if k.state = .proven then .proven else .cancelled := by
    unfold knockHeard
    cases k.state <;> simp
  have hheard : (knockHeard k now).heardNs = now := by
    unfold knockHeard
    dsimp only
    split_ifs <;> rfl
  constructor
  · rw [hstate]
    have hlog := h.proven
    by_cases hp : k.state = .proven
    · obtain ⟨l, hl, hd⟩ := hlog.mp hp
      simp only [hp, if_true, true_iff]
      exact ⟨l, List.mem_append_left _ hl, hd⟩
    · simp only [hp, if_false, reduceCtorEq, false_iff]
      rintro ⟨l, hl, hd⟩
      rcases (List.mem_append.mp hl).imp_right List.mem_singleton.mp with hl | rfl
      · exact hp (hlog.mpr ⟨l, hl, hd⟩)
      · exact hsilent hd
  · rw [hstate]
    split_ifs <;> simp
  · intro _
    rw [hheard]
    refine ⟨hlegal.opened_le, hlegal.room, ⟨_, List.mem_concat_self, rfl⟩, ?_⟩
    intro l hl heard hin
    rcases (List.mem_append.mp hl).imp_right List.mem_singleton.mp with hl | rfl
    · have hle := hlegal.log_le l hl
      rwa [hin] at hle
    · cases hin
      exact UInt64.le_refl _

/-- A step leaves the log with itself in it. -/
theorem KnockLog.step (h : KnockLog opened log k) (now : UInt64) :
    KnockLog opened (log ++ [knockMachine.event k (.step now)]) (knockStep k now).1 := by
  have hroom : k.state = .cancelled → k.heardNs.toNat + knockListenNs.toNat < 2 ^ 64 :=
    fun hstate => (h.cancelled hstate).2.1
  rcases knockStep_cases now hroom with ⟨-, hout, hpost⟩ | ⟨-, hnothing⟩
  · constructor
    · rw [hpost]
      simp only [true_iff]
      exact ⟨_, List.mem_concat_self, hout⟩
    · rw [hpost]
      simp
    · rw [hpost]
      simp
  · have hsilent : ¬ Drives (knockMachine.event k (.step now)) := by
      show (knockStep k now).2 ≠ .drive
      simp [hnothing]
    have hheard : ∀ heard, (knockMachine.event k (.step now)).input ≠ .heard heard := by simp
    rw [hnothing]
    constructor
    · rw [h.proven]
      constructor
      · rintro ⟨l, hl, hd⟩
        exact ⟨l, List.mem_append_left _ hl, hd⟩
      · rintro ⟨l, hl, hd⟩
        rcases (List.mem_append.mp hl).imp_right List.mem_singleton.mp with hl | rfl
        · exact ⟨l, hl, hd⟩
        · exact absurd hd hsilent
    · intro hstate
      obtain ⟨hdue, hquiet⟩ := h.listening hstate
      refine ⟨hdue, fun l hl => ?_⟩
      rcases (List.mem_append.mp hl).imp_right List.mem_singleton.mp with hl | rfl
      · exact hquiet l hl
      · exact hheard
    · intro hstate
      obtain ⟨hopened, hwindow, ⟨l₀, hl₀, hin₀⟩, hlast⟩ := h.cancelled hstate
      refine ⟨hopened, hwindow, ⟨l₀, List.mem_append_left _ hl₀, hin₀⟩, fun l hl => ?_⟩
      rcases (List.mem_append.mp hl).imp_right List.mem_singleton.mp with hl | rfl
      · exact hlast l hl
      · exact fun heard hin => absurd hin (hheard heard)

/-- The calls of a run with a clock that does not go back are legal. -/
theorem knockLegal_of_run {is : List KnockInput}
    (hmono : (opened :: is.map KnockInput.now).Pairwise (· ≤ ·))
    (hroom : ∀ t ∈ opened :: is.map KnockInput.now, t.toNat + knockListenNs.toNat < 2 ^ 64)
    {e : KnockStep} (he : knockMachine.StepOf (knockInit opened) is log e) : KnockLegal opened log e := by
  have hin : e.input.now ∈ is.map KnockInput.now := List.mem_map_of_mem (he.input_mem _)
  rw [List.pairwise_cons, List.pairwise_map] at hmono
  exact ⟨hmono.1 _ hin, fun l hl => he.of_pairwise _ hmono.2 hl, hroom _ (List.mem_cons_of_mem _ hin)⟩

/-- A call drives exactly if the wire is silent and no call before it drove. -/
theorem knock_drives {is : List KnockInput}
    (hmono : (opened :: is.map KnockInput.now).Pairwise (· ≤ ·))
    (hroom : ∀ t ∈ opened :: is.map KnockInput.now, t.toNat + knockListenNs.toNat < 2 ^ 64)
    (e : KnockStep) (he : knockMachine.StepOf (knockInit opened) is log e) :
    Drives e ↔ WireSilent opened log e ∧ ∀ l ∈ log, ¬ Drives l := by
  have hinit := KnockLog.init (hroom opened List.mem_cons_self)
  obtain ⟨hlog, hevent⟩ := knockMachine.trace_invariant_at (H := KnockLog opened)
    (L := KnockLegal opened) hinit
    (fun log k i h hlegal => by
      cases i with
      | heard now => exact h.heard hlegal
      | step now => exact h.step now)
    (fun log e he => knockLegal_of_run hmono hroom he) he
  rw [hevent]
  generalize e.pre = k at hlog ⊢
  cases e.input with
  | heard now => simp [Drives, WireSilent, knockMachine]
  | step now =>
    rw [← hlog.due_iff]
    rcases knockStep_cases now (fun hstate => (hlog.cancelled hstate).2.1) with
      ⟨hdue, hout, -⟩ | ⟨hdue, hnothing⟩
    · simp only [hdue, iff_true]
      exact hout
    · simp only [hdue, iff_false]
      show (knockStep k now).2 ≠ .drive
      simp [hnothing]

/-- The licence is granted at most once, and at the first step a whole window behind the init and
behind every frame heard so far. -/
theorem knock_licence (opened : UInt64) (is : List KnockInput)
    (hmono : (opened :: is.map KnockInput.now).Pairwise (· ≤ ·))
    (hroom : ∀ t ∈ opened :: is.map KnockInput.now, t.toNat + knockListenNs.toNat < 2 ^ 64) :
    (knockMachine.trace (knockInit opened) is).countP Drives ≤ 1 ∧
      ∀ log e, knockMachine.StepOf (knockInit opened) is log e →
        (Drives e ↔ WireSilent opened log e ∧
          ∀ before l, before ++ [l] <+: log → ¬ WireSilent opened before l) :=
  ⟨knockMachine.countP_fires_le_one fun _ => knock_drives hmono hroom,
    fun _ _ he => knockMachine.fires_iff_first (fun _ => knock_drives hmono hroom) he⟩

/-- A frame 0.2 s into the first window puts the licence off to 0.7 s. -/
theorem knock_licence_reopened :
    let is : List KnockInput := [.heard 200000000, .step 500000000, .step 700000000, .step 1300000000]
    (knockMachine.trace (knockInit 0) is).map Event.out = [.none, .none, .drive, .none] ∧
      (knockMachine.trace (knockInit 0) is).countP Drives ≤ 1 ∧
      ∀ log e, knockMachine.StepOf (knockInit 0) is log e →
        (Drives e ↔ WireSilent 0 log e ∧ ∀ before l, before ++ [l] <+: log → ¬ WireSilent 0 before l) :=
  ⟨rfl, knock_licence 0 _ (by simp [KnockInput.now]) (by simp [KnockInput.now, knockListenNs])⟩

end Runs

end Libreac
